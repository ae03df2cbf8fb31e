import Wiring.Proofs.Order.Related
import Wiring.Proofs.Site.Collect
import Wiring.Proofs.Walk.Declared
import Wiring.Proofs.Walk.Failure

/-!
# Sites along a walk

A collector reads a walk event by event and makes the sites of an event before it reads on. So of a
point that is refused and the failure of the walk, that one ends it which it comes to first. What is
collected without either is one site for each type that an event asks for, in order; a class that is
asked for several times has a site for each of these, and its own sites once.
-/

namespace Wiring

open Walk (Event)

/-! ## The sites of an event -/

namespace Walk.Event

/-- The point at the result of a provision method. -/
def provisionPoint (c : TypeDecl) (method : Method) : InjectionPoint where
  element := "provision method " ++ c.name ++ "." ++ method.name ++ "()"
  kind := .provisionResult
  type := method.returns
  annotations := method.annotations

/-- The point at a parameter of a provides method, by the type that declares it. -/
def providesPoint (declaring : TypeDecl) (method : Method) (p : Parameter) : InjectionPoint :=
  parameterPoint (if method.isStatic then .staticProvidesParameter else .instanceProvidesParameter)
    declaring.name method p

/-- The point at an injected field of a class. -/
def fieldPoint (c : TypeDecl) (f : Field) : InjectionPoint where
  element := "field " ++ c.name ++ "." ++ f.name
  kind := .field
  type := f.type
  annotations := f.annotations

/-- The sites of an event, if none is refused: one for a provision method, an injected parameter or
field, and one for each parameter of a provides method. -/
inductive Collects : Event → List Site → Prop
  | silent {e : Event} (h : e.requests = []) : Collects e []
  | provisionMethod {c : TypeDecl} {method : Method} {s : Site}
    (h : Site.ofPoint (provisionPoint c method) = .ok s) : Collects (.provisionMethod c method) [s]
  | providesMethod {owner declaring : TypeDecl} {method : Method} {sites : List Site}
    (h : List.Forall₂ (fun p s => Site.ofPoint (providesPoint declaring method p) = .ok s)
      method.parameters sites) : Collects (.providesMethod owner declaring method) sites
  | constructorParameter {c : TypeDecl} {constructor : Method} {p : Parameter} {s : Site}
    (h : Site.ofPoint (parameterPoint .constructorParameter c.name constructor p) = .ok s) :
    Collects (.constructorParameter c constructor p) [s]
  | methodParameter {c : TypeDecl} {method : Method} {p : Parameter} {s : Site}
    (h : Site.ofPoint (parameterPoint .methodParameter c.name method p) = .ok s) :
    Collects (.methodParameter c method p) [s]
  | field {c : TypeDecl} {f : Field} {s : Site} (h : Site.ofPoint (fieldPoint c f) = .ok s) :
    Collects (.field c f) [s]

/-- The error of an event: that of its first point that is refused. -/
inductive Refuses : Event → Error → Prop
  | provisionMethod {c : TypeDecl} {method : Method} {e : Error}
    (h : Site.ofPoint (provisionPoint c method) = .error e) : Refuses (.provisionMethod c method) e
  | providesMethod {owner declaring : TypeDecl} {method : Method} {before after : List Parameter}
    {p : Parameter} {sites : List Site} {e : Error}
    (hparameters : method.parameters = before ++ p :: after)
    (hbefore : List.Forall₂ (fun p s => Site.ofPoint (providesPoint declaring method p) = .ok s)
      before sites) (h : Site.ofPoint (providesPoint declaring method p) = .error e) :
    Refuses (.providesMethod owner declaring method) e
  | constructorParameter {c : TypeDecl} {constructor : Method} {p : Parameter} {e : Error}
    (h : Site.ofPoint (parameterPoint .constructorParameter c.name constructor p) = .error e) :
    Refuses (.constructorParameter c constructor p) e
  | methodParameter {c : TypeDecl} {method : Method} {p : Parameter} {e : Error}
    (h : Site.ofPoint (parameterPoint .methodParameter c.name method p) = .error e) :
    Refuses (.methodParameter c method p) e
  | field {c : TypeDecl} {f : Field} {e : Error} (h : Site.ofPoint (fieldPoint c f) = .error e) :
    Refuses (.field c f) e

variable {event : Event} {e : Error} {sites : List Site}

/-- An event has a point for each type that it asks for. -/
theorem map_type_points (event : Event) : event.points.map (·.type) = event.requests := by
  cases event with
  | providesMethod owner declaring method => exact List.map_map
  | _ => rfl

theorem points_eq_nil_iff : event.points = [] ↔ event.requests = [] := by
  rw [← map_type_points, List.map_eq_nil_iff]

/-- A single point has a single site. -/
theorem mapM_singleton_eq_ok_iff {p : InjectionPoint} :
    [p].mapM Site.ofPoint = .ok sites ↔ ∃ s, Site.ofPoint p = .ok s ∧ sites = [s] := by
  rw [mapM_eq_ok_iff, List.forall₂_cons_left_iff]
  simp

theorem mapM_singleton_eq_error_iff {p : InjectionPoint} :
    [p].mapM Site.ofPoint = .error e ↔ Site.ofPoint p = .error e := by
  rw [List.mapM_cons, List.mapM_nil, bind_eq_error_iff]
  simp [bind_eq_error_iff, pure, Except.pure]

/-- The sites of an event are those of its points. -/
theorem collects_iff : Collects event sites ↔ event.points.mapM Site.ofPoint = .ok sites := by
  constructor
  · intro h
    cases h with
    | silent h => rw [points_eq_nil_iff.2 h]; rfl
    | provisionMethod h => exact mapM_singleton_eq_ok_iff.2 ⟨_, h, rfl⟩
    | providesMethod h => exact mapM_eq_ok_iff.2 (List.forall₂_map_left_iff.2 h)
    | constructorParameter h => exact mapM_singleton_eq_ok_iff.2 ⟨_, h, rfl⟩
    | methodParameter h => exact mapM_singleton_eq_ok_iff.2 ⟨_, h, rfl⟩
    | field h => exact mapM_singleton_eq_ok_iff.2 ⟨_, h, rfl⟩
  · intro h
    by_cases hsilent : event.requests = []
    · rw [points_eq_nil_iff.2 hsilent] at h
      cases h
      exact .silent hsilent
    · cases event with
      | provisionMethod c method =>
        obtain ⟨s, hs, rfl⟩ := mapM_singleton_eq_ok_iff.1 h
        exact .provisionMethod hs
      | providesMethod owner declaring method =>
        exact .providesMethod (List.forall₂_map_left_iff.1 (mapM_eq_ok_iff.1 h))
      | constructorParameter c constructor p =>
        obtain ⟨s, hs, rfl⟩ := mapM_singleton_eq_ok_iff.1 h
        exact .constructorParameter hs
      | methodParameter c method p =>
        obtain ⟨s, hs, rfl⟩ := mapM_singleton_eq_ok_iff.1 h
        exact .methodParameter hs
      | field c f =>
        obtain ⟨s, hs, rfl⟩ := mapM_singleton_eq_ok_iff.1 h
        exact .field hs
      | _ => exact absurd rfl hsilent

/-- The error of an event is that of its first point that is refused. -/
theorem refuses_iff : Refuses event e ↔ event.points.mapM Site.ofPoint = .error e := by
  constructor
  · intro h
    cases h with
    | provisionMethod h => exact mapM_singleton_eq_error_iff.2 h
    | @providesMethod _ declaring method before after p sites _ hparameters hbefore h =>
      refine mapM_eq_error_iff.2 ⟨before.map (providesPoint declaring method),
        providesPoint declaring method p, after.map (providesPoint declaring method), sites, ?_,
        List.forall₂_map_left_iff.2 hbefore, h⟩
      show method.parameters.map (providesPoint declaring method) = _
      rw [hparameters, List.map_append, List.map_cons]
    | constructorParameter h => exact mapM_singleton_eq_error_iff.2 h
    | methodParameter h => exact mapM_singleton_eq_error_iff.2 h
    | field h => exact mapM_singleton_eq_error_iff.2 h
  · intro h
    cases event with
    | provisionMethod c method => exact .provisionMethod (mapM_singleton_eq_error_iff.1 h)
    | providesMethod owner declaring method =>
      obtain ⟨points, point, rest, sites, hpoints, hsites, hpoint⟩ := mapM_eq_error_iff.1 h
      obtain ⟨before, tail, hparameters, rfl, htail⟩ := List.map_eq_append_iff.1 hpoints
      obtain ⟨p, after, rfl, rfl, rfl⟩ := List.map_eq_cons_iff.1 htail
      exact .providesMethod hparameters (List.forall₂_map_left_iff.1 hsites) hpoint
    | constructorParameter c constructor p =>
      exact .constructorParameter (mapM_singleton_eq_error_iff.1 h)
    | methodParameter c method p => exact .methodParameter (mapM_singleton_eq_error_iff.1 h)
    | field c f => exact .field (mapM_singleton_eq_error_iff.1 h)
    | _ => cases h

end Walk.Event

open Walk.Event (Collects Refuses)

/-! ## The run of a collector -/

variable {m : Model} {root : String} {c : Cursor} {es : List Event} {failure : Option Error}
  {e : Error} {sites : List Site} {result : Except Error (List Site)}

namespace Cursor

/-- A run of the collector: what it ends with, if it goes on from a cursor with some sites. -/
inductive Collection (m : Model) : Cursor → List Site → Except Error (List Site) → Prop
  | done {c c' : Cursor} {sites : List Site} (h : c.next m = (none, c')) :
    Collection m c sites (.ok sites)
  | failed {c c' : Cursor} {sites : List Site} {e : Error} (h : c.next m = (some (.error e), c')) :
    Collection m c sites (.error e)
  | refused {c c' : Cursor} {sites : List Site} {event : Event} {e : Error}
    (h : c.next m = (some (.ok event), c')) (hevent : Refuses event e) :
    Collection m c sites (.error e)
  | event {c c' : Cursor} {sites more : List Site} {event : Event}
    {result : Except Error (List Site)} (h : c.next m = (some (.ok event), c'))
    (hevent : Collects event more) (hrest : Collection m c' (sites ++ more) result) :
    Collection m c sites result

end Cursor

namespace Cursor

/-! One step of a run is settled by what the cursor reads next. -/

theorem collection_done_iff {c' : Cursor} (h : c.next m = (none, c')) :
    Collection m c sites result ↔ result = .ok sites := by
  constructor
  · intro hrun
    cases hrun <;> simp_all
  · rintro rfl
    exact .done h

theorem collection_failed_iff {c' : Cursor} (h : c.next m = (some (.error e), c')) :
    Collection m c sites result ↔ result = .error e := by
  constructor
  · intro hrun
    cases hrun <;> simp_all
  · rintro rfl
    exact .failed h

theorem collection_refused_iff {c' : Cursor} {event : Event}
    (h : c.next m = (some (.ok event), c')) (hevent : event.points.mapM Site.ofPoint = .error e) :
    Collection m c sites result ↔ result = .error e := by
  constructor
  · intro hrun
    cases hrun <;> simp_all [Event.collects_iff, Event.refuses_iff]
  · rintro rfl
    exact .refused h (Event.refuses_iff.2 hevent)

theorem collection_event_iff {c' : Cursor} {event : Event} {more : List Site}
    (h : c.next m = (some (.ok event), c')) (hevent : event.points.mapM Site.ofPoint = .ok more) :
    Collection m c sites result ↔ Collection m c' (sites ++ more) result := by
  constructor
  · intro hrun
    cases hrun <;> simp_all [Event.collects_iff, Event.refuses_iff]
  · intro hrest
    exact .event h (Event.collects_iff.2 hevent) hrest

end Cursor

/-- The sites of an event come before those of the rest of the walk. -/
theorem Walk.sites_cons_of_ok {event : Event} {more : List Site}
    (h : event.points.mapM Site.ofPoint = .ok more) (es : List Event) (failure : Option Error) :
    (Walk.mk (event :: es) failure).sites = (Walk.mk es failure).sites.map (more ++ ·) := by
  unfold Walk.sites
  rw [List.flatMap_cons, List.mapM_append, h]
  cases hrest : (es.flatMap Event.points).mapM Site.ofPoint with
  | error e => rfl
  | ok rest => cases failure <;> rfl

theorem Walk.sites_cons_of_error {event : Event} {e : Error}
    (h : event.points.mapM Site.ofPoint = .error e) (es : List Event) (failure : Option Error) :
    (Walk.mk (event :: es) failure).sites = .error e := by
  unfold Walk.sites
  rw [List.flatMap_cons, List.mapM_append, h]
  rfl

/-- **A run of the collector ends with what is collected** from the events that are left. -/
theorem Cursor.collection_iff (h : Yields m c es failure) (sites : List Site)
    (result : Except Error (List Site)) :
    Collection m c sites result ↔ result = (Walk.mk es failure).sites.map (sites ++ ·) := by
  induction h generalizing sites with
  | done h _ =>
    have hsites : (Walk.mk [] none).sites.map (sites ++ ·) = .ok sites :=
      congrArg Except.ok (List.append_nil sites)
    rw [collection_done_iff h, hsites]
  | failed h _ =>
    rw [collection_failed_iff h]
    rfl
  | @event c c' event es failure h _ ih =>
    cases hevent : event.points.mapM Site.ofPoint with
    | error e =>
      rw [collection_refused_iff h hevent, Walk.sites_cons_of_error hevent]
      rfl
    | ok more =>
      rw [collection_event_iff h hevent, ih, Walk.sites_cons_of_ok hevent]
      cases (Walk.mk es failure).sites with
      | error e => rfl
      | ok rest =>
        show result = .ok (sites ++ more ++ rest) ↔ result = .ok (sites ++ (more ++ rest))
        rw [List.append_assoc]

/-- **A run ends with the error that it comes to first.** -/
theorem Cursor.collection_error_iff :
    Collection m c sites (.error e) ↔
      ∃ n, (∀ i < n, ∃ event more, c.read m i = some (.ok event) ∧ Collects event more) ∧
        (c.read m n = some (.error e) ∨
          ∃ event, c.read m n = some (.ok event) ∧ Refuses event e) := by
  constructor
  · intro hrun
    generalize hresult : Except.error e = result at hrun
    induction hrun with
    | done h => cases hresult
    | failed h =>
      cases hresult
      exact ⟨0, nofun, .inl (congrArg Prod.fst h)⟩
    | @refused c c' sites event e' h hevent =>
      cases hresult
      exact ⟨0, nofun, .inr ⟨event, congrArg Prod.fst h, hevent⟩⟩
    | @event c c' sites more event result h hevent _ ih =>
      obtain ⟨n, hbefore, hn⟩ := ih hresult
      have hread : ∀ i, c.read m (i + 1) = c'.read m i := fun i => by rw [read, h]
      refine ⟨n + 1, fun i hi => ?_, by rwa [hread]⟩
      cases i with
      | zero => exact ⟨event, more, congrArg Prod.fst h, hevent⟩
      | succ i =>
        rw [hread]
        exact hbefore i (Nat.lt_of_succ_lt_succ hi)
  · rintro ⟨n, hbefore, hn⟩
    induction n generalizing c sites with
    | zero =>
      have hnext : ∀ x, c.read m 0 = some x → c.next m = (some x, (c.next m).2) :=
        fun x h => Prod.ext h rfl
      rcases hn with hn | ⟨event, hn, hevent⟩
      · exact .failed (hnext _ hn)
      · exact .refused (hnext _ hn) hevent
    | succ n ih =>
      obtain ⟨event, more, hfirst, hevent⟩ := hbefore 0 (Nat.succ_pos n)
      refine .event (Prod.ext hfirst rfl) hevent (ih (fun i hi => ?_) hn)
      exact hbefore (i + 1) (Nat.succ_lt_succ hi)

namespace Model

/-! ## What is collected -/

/-- How the sites below a root are collected: event by event, as they are read. -/
structure CollectedByEvent (m : Model) (root : String) : Prop where
  /-- What is collected is what the run from the start ends with. -/
  run_iff : ∀ result, m.sites root = result ↔ Cursor.Collection m (.start root) [] result
  /-- Sites are collected if each read yields an event or nothing and no event is refused. -/
  ok_iff : ∀ sites, m.sites root = .ok sites ↔
    ∃ events groups, (∀ n, (Cursor.start root).read m n = (events[n]?).map Except.ok) ∧
      List.Forall₂ Collects events groups ∧ sites = groups.flatten
  /-- Otherwise it is the first read that yields an error or an event that is refused. -/
  error_iff : ∀ e, m.sites root = .error e ↔
    ∃ n, (∀ i < n, ∃ event more,
        (Cursor.start root).read m i = some (.ok event) ∧ Collects event more) ∧
      ((Cursor.start root).read m n = some (.error e) ∨
        ∃ event, (Cursor.start root).read m n = some (.ok event) ∧ Refuses event e)
  /-- A class has as many sites that ask for it as there are references to it. -/
  references_eq : ∀ sites, m.sites root = .ok sites →
    sites.filterMap (m.requested? ·.declaredType) = m.requestedClasses (m.walk root).events
  /-- A class that some site asks for has its own sites once. -/
  own_once : ∀ sites, m.sites root = .ok sites → ∀ s ∈ sites, ∀ d,
    m.requested? s.declaredType = some d →
    ∃ before after first own last, (m.walk root).events = before ++ m.classBlock d ++ after ∧
      (∀ event ∈ before ++ after, event.subject ≠ (.class, d)) ∧
      List.Forall₂ Collects before first ∧ List.Forall₂ Collects (m.classBlock d) own ∧
      List.Forall₂ Collects after last ∧ sites = first.flatten ++ own.flatten ++ last.flatten

/-- The reads from the start yield events only, exactly if the walk does not fail. -/
theorem read_start_eq_iff {events : List Event} :
    (∀ n, (Cursor.start root).read m n = (events[n]?).map Except.ok) ↔
      (m.walk root).failure = none ∧ (m.walk root).events = events := by
  have hread := (Cursor.yields_walk m root).read_eq
  constructor
  · intro h
    have heq : (m.walk root).events.map Except.ok ++
        ((m.walk root).failure.map Except.error).toList = events.map Except.ok := by
      refine List.ext_getElem? fun n => ?_
      rw [← hread, h, List.getElem?_map]
    cases hfailure : (m.walk root).failure with
    | none =>
      rw [hfailure, Option.map_none, Option.toList_none, List.append_nil] at heq
      exact ⟨rfl, List.map_injective_iff.2 (fun _ _ => Except.ok.inj) heq⟩
    | some e =>
      have hmem : (.error e : Except Error Event) ∈ events.map Except.ok := by
        rw [← heq, hfailure]
        exact List.mem_append_right _ List.mem_cons_self
      obtain ⟨event, _, hevent⟩ := List.mem_map.1 hmem
      cases hevent
  · rintro ⟨hfailure, rfl⟩ n
    rw [hread, hfailure, Option.map_none, Option.toList_none, List.append_nil, List.getElem?_map]

/-- What is collected is collected event by event. -/
theorem mapM_points_eq_ok_iff :
    (es.flatMap Event.points).mapM Site.ofPoint = .ok sites ↔
      ∃ groups, List.Forall₂ Collects es groups ∧ sites = groups.flatten := by
  induction es generalizing sites with
  | nil =>
    simp only [List.forall₂_nil_left_iff, exists_eq_left, List.flatMap_nil, List.mapM_nil]
    exact ⟨fun h => (Except.ok.inj h).symm, fun h => congrArg Except.ok h.symm⟩
  | cons event es ih =>
    rw [List.flatMap_cons, List.mapM_append, bind_eq_ok_iff]
    simp only [bind_eq_ok_iff, ih, ← Event.collects_iff]
    constructor
    · rintro ⟨more, hmore, rest, ⟨groups, hgroups, rfl⟩, h⟩
      exact ⟨more :: groups, .cons hmore hgroups, (Except.ok.inj h).symm⟩
    · rintro ⟨groups, hgroups, rfl⟩
      obtain ⟨more, rest, hmore, hrest, rfl⟩ := List.forall₂_cons_left_iff.1 hgroups
      exact ⟨more, hmore, _, ⟨rest, hrest, rfl⟩, rfl⟩

theorem sites_eq_ok_iff_collects :
    m.sites root = .ok sites ↔ (m.walk root).failure = none ∧
      ∃ groups, List.Forall₂ Collects (m.walk root).events groups ∧ sites = groups.flatten := by
  rw [sites_eq_ok_iff, ← mapM_eq_ok_iff, points, mapM_points_eq_ok_iff]

/-- **Each type that an event asks for has its site.** -/
theorem declaredType_sites (h : m.sites root = .ok sites) :
    sites.map (·.declaredType) = (m.walk root).events.flatMap Event.requests := by
  have htype : ∀ p s, Site.ofPoint p = .ok s → p.type = s.declaredType := by
    intro p s hs
    obtain ⟨-, -, rfl⟩ := Site.ofPoint_eq_ok_iff.1 hs
    rfl
  rw [← map_eq_of_forall₂ htype (sites_eq_ok_iff.1 h).2, points, List.map_flatMap]
  exact List.flatMap_congr fun event _ => event.map_type_points

/-- What is collected along some events and others after them, is collected in two parts. -/
theorem exists_collects_append {es' : List Event} {groups : List (List Site)}
    (h : List.Forall₂ Collects (es ++ es') groups) :
    ∃ first last, List.Forall₂ Collects es first ∧ List.Forall₂ Collects es' last ∧
      groups = first ++ last := by
  refine ⟨groups.take es.length, groups.drop es.length, ?_, ?_, (List.take_append_drop _ _).symm⟩
  · have hfirst := List.forall₂_take es.length h
    rwa [List.take_left] at hfirst
  · have hlast := List.forall₂_drop es.length h
    rwa [List.drop_left] at hlast

/-- A class that a site asks for has its own sites in one place, and none elsewhere. -/
theorem exists_own_sites {s : Site} {d : TypeDecl} (h : m.sites root = .ok sites) (hs : s ∈ sites)
    (hd : m.requested? s.declaredType = some d) :
    ∃ before after first own last, (m.walk root).events = before ++ m.classBlock d ++ after ∧
      (∀ event ∈ before ++ after, event.subject ≠ (.class, d)) ∧
      List.Forall₂ Collects before first ∧ List.Forall₂ Collects (m.classBlock d) own ∧
      List.Forall₂ Collects after last ∧ sites = first.flatten ++ own.flatten ++ last.flatten := by
  obtain ⟨hfailure, groups, hgroups, hsites⟩ := sites_eq_ok_iff_collects.1 h
  obtain ⟨c, hc, -⟩ := failure_eq_none_iff.1 hfailure
  have hrequested : d ∈ m.requestedClasses (m.walk root).events := by
    rw [requestedClasses, ← declaredType_sites h]
    exact List.mem_filterMap.2 ⟨_, List.mem_map_of_mem hs, hd⟩
  obtain ⟨before, after, hevents, hother⟩ := (blocks_of_component hc).exists_classBlock
    (mem_walkedClasses_of_requested hc hfailure hrequested)
  rw [hevents] at hgroups
  obtain ⟨upTo, last, hupTo, hlast, rfl⟩ := exists_collects_append hgroups
  obtain ⟨first, own, hfirst, hown, rfl⟩ := exists_collects_append hupTo
  refine ⟨before, after, first, own, last, hevents, hother, hfirst, hown, hlast, ?_⟩
  rw [hsites, List.flatten_append, List.flatten_append]

/-- What is collected is what the run of the collector from the start ends with. -/
theorem sites_eq_iff_collection {result : Except Error (List Site)} :
    m.sites root = result ↔ Cursor.Collection m (.start root) [] result := by
  rw [Cursor.collection_iff (Cursor.yields_walk m root), eq_comm, sites]
  cases (m.walk root).sites <;> rfl

/-- **Sites are collected event by event.** -/
theorem collectedByEvent (m : Model) (root : String) : m.CollectedByEvent root where
  run_iff result := sites_eq_iff_collection
  ok_iff sites := by
    rw [sites_eq_ok_iff_collects]
    simp only [read_start_eq_iff]
    constructor
    · rintro ⟨hfailure, groups, hgroups⟩
      exact ⟨_, groups, ⟨hfailure, rfl⟩, hgroups⟩
    · rintro ⟨_, groups, ⟨hfailure, rfl⟩, hgroups⟩
      exact ⟨hfailure, groups, hgroups⟩
  error_iff e := by
    rw [sites_eq_iff_collection, Cursor.collection_error_iff]
  references_eq sites h := by
    rw [requestedClasses, ← declaredType_sites h, List.filterMap_map]
    rfl
  own_once sites h s hs d hd := exists_own_sites h hs hd

/-! A database that is asked for three times, and two roots that include it as if it were a module.
Below both there also is a number that is said to be nullable: below one of them before that reference
is followed, below the other one after. -/

def sharedModel : Model :=
  Model.empty.insertAll
    [ { name := "app.App", kind := .component, modules := ["app.Mod"]
        methods := [{ name := "db", returns := .declared "app.Db" [] }] },
      { name := "app.Mod", kind := .module
        methods :=
          [ { name := "pool", returns := .declared "app.Pool" [], provides := true, isStatic := true
              parameters :=
                [ { name := "db", type := .declared "app.Db" [] },
                  { name := "size", type := .primitive .int } ] },
            { name := "cache", returns := .declared "app.Cache" [], provides := true
              parameters := [{ name := "db", type := .declared "app.Db" [] }] } ] },
      { name := "app.Db", fields := [{ name := "url", type := .string, inject := true }] },
      { name := "app.Early", kind := .component, modules := ["app.Db"]
        methods :=
          [ { name := "port", returns := .primitive .int
              annotations := [.marker "Nullable"] } ] },
      { name := "app.Late", kind := .component, modules := ["app.Db"]
        methods := [{ name := "client", returns := .declared "app.Client" [] }] },
      { name := "app.Client"
        fields :=
          [ { name := "port", type := .primitive .int, inject := true
              annotations := [.marker "Nullable"] } ] } ]

theorem collectedByEvent_example :
    sharedModel.CollectedByEvent "app.App" ∧
      (sharedModel.sites "app.App").map (·.map fun s => (s.kind, s.element)) = .ok
        [ (.provisionResult, "provision method app.App.db()"),
          (.staticProvidesParameter, "parameter 'db' of app.Mod.pool(app.Db db, int size)"),
          (.staticProvidesParameter, "parameter 'size' of app.Mod.pool(app.Db db, int size)"),
          (.instanceProvidesParameter, "parameter 'db' of app.Mod.cache(app.Db db)"),
          (.field, "field app.Db.url") ] ∧
      sharedModel.sites "app.Early" =
        .error (.nullablePrimitive "provision method app.Early.port()" "int") ∧
      sharedModel.sites "app.Late" = .error (.notAModule "app.Db" "app.Late") :=
  ⟨collectedByEvent _ _, by cbv, by cbv, by cbv⟩

end Model

end Wiring
