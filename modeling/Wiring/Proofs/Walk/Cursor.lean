import Wiring.Proofs.Walk.Classes
import Wiring.Proofs.Walk.Modules

/-!
# Walks, event by event

A walk can be read lazily, by a cursor that makes a block only when the events of the one before are
used up. Its queues differ in when they tell old from new: module references are dropped as they come
to the front, classes are turned away at the end. The cursor yields the events of the walk all the
same.
-/

namespace Wiring

open BreadthFirst (visit fresh marked)
open Walk (Event)

/-- How far a walk has been read. -/
structure Cursor where
  /-- The root, until its block is made. -/
  root : Option String := none
  /-- The events of the blocks that were made, up to those that were read. -/
  pending : List Event := []
  modules : List ModuleRef := []
  /-- The names of the modules whose blocks were made. -/
  visited : List String := []
  classes : List TypeDecl := []
  /-- The names of the classes that ever were in the queue. -/
  seen : List String := []
  failed : Bool := false

namespace Cursor

def start (root : String) : Cursor := { root := some root }

/-- Puts a class into the queue unless it was there before. -/
def push (c : Cursor) (d : TypeDecl) : Cursor :=
  if d.name ∈ c.seen then c else { c with classes := c.classes ++ [d], seen := d.name :: c.seen }

/-- Adds a block and the classes that it asks for. -/
def take (m : Model) (c : Cursor) (block : List Event) : Cursor :=
  (m.requestedClasses block).foldl push { c with pending := c.pending ++ block }

/-- Makes the next block; `false` if there is none. -/
def advance (m : Model) (c : Cursor) : Except Error Bool × Cursor :=
  match c.root with
  | some root =>
    let c := { c with root := none }
    match m.component? root with
    | .error e => (.error e, c)
    | .ok d =>
      (.ok true, take m { c with modules := c.modules ++ d.moduleRefs } (Model.componentBlock d))
  | none =>
    match c.modules.dropWhile (·.name ∈ c.visited) with
    | r :: rest =>
      let c := { c with modules := rest, visited := r.name :: c.visited }
      match m.module? r with
      | .error e => (.error e, c)
      | .ok d => (.ok true, take m { c with modules := rest ++ d.moduleRefs } (m.moduleBlock d))
    | [] =>
      let c := { c with modules := [] }
      match c.classes with
      | d :: rest => (.ok true, take m { c with classes := rest } (m.classBlock d))
      | [] => (.ok false, c)

/-! ## Blocks -/

/-- A block is added as a whole, and with it the classes that were not seen before. -/
theorem foldl_push (ds : List TypeDecl) (c : Cursor) :
    ds.foldl push c =
      { c with
        classes := c.classes ++ fresh TypeDecl.name c.seen ds
        seen := marked TypeDecl.name c.seen ds } := by
  induction ds generalizing c with
  | nil => simp [fresh, marked]
  | cons d ds ih =>
    rw [List.foldl_cons, ih, push]
    split
    · next hd => simp [fresh, marked, hd]
    · next hd => simp [fresh, marked, hd]

theorem take_eq (m : Model) (c : Cursor) (block : List Event) :
    take m c block =
      { c with
        pending := c.pending ++ block
        classes := c.classes ++ fresh TypeDecl.name c.seen (m.requestedClasses block)
        seen := marked TypeDecl.name c.seen (m.requestedClasses block) } :=
  foldl_push _ _

/-- A block that was made holds an event. -/
theorem pending_ne_nil_of_advance {m : Model} {c c' : Cursor}
    (h : c.advance m = (.ok true, c')) : c'.pending ≠ [] := by
  have htake : ∀ (c : Cursor) e es, (take m c (e :: es)).pending ≠ [] := by
    intro c e es
    rw [take_eq]
    simp
  unfold advance at h
  dsimp only at h
  split at h
  · split at h
    · cases h
    · cases h
      exact htake _ _ _
  · split at h
    · split at h
      · cases h
      · cases h
        exact htake _ _ _
    · split at h
      · cases h
        exact htake _ _ _
      · cases h

/-- Reads one event, or the failure that ends the walk. -/
def next (m : Model) (c : Cursor) : Option (Except Error Event) × Cursor :=
  if c.failed then (none, c)
  else
    match _hpending : c.pending with
    | e :: es => (some (.ok e), { c with pending := es })
    | [] =>
      match _hadvance : c.advance m with
      | (.ok true, c') => next m c'
      | (.ok false, c') => (none, c')
      | (.error e, c') => (some (.error e), { c' with pending := [], failed := true })
termination_by c.pending.isEmpty.toNat
decreasing_by
  have hne := pending_ne_nil_of_advance _hadvance
  rw [_hpending, List.isEmpty_eq_false_iff.2 hne]
  exact Nat.zero_lt_one

/-- What a cursor yields, one event after another, up to its end or to a failure. After that it
yields nothing more. -/
inductive Yields (m : Model) : Cursor → List Event → Option Error → Prop
  | done {c c' : Cursor} (h : c.next m = (none, c')) (hend : c'.next m = (none, c')) :
    Yields m c [] none
  | failed {c c' : Cursor} {e : Error} (h : c.next m = (some (.error e), c'))
    (hend : c'.next m = (none, c')) : Yields m c [] (some e)
  | event {c c' : Cursor} {e : Event} {es : List Event} {failure : Option Error}
    (h : c.next m = (some (.ok e), c')) (hrest : Yields m c' es failure) :
    Yields m c (e :: es) failure

variable {m : Model} {c c' : Cursor} {es : List Event} {failure : Option Error}

theorem next_of_pending {e : Event} (hfailed : c.failed = false) (h : c.pending = e :: es) :
    c.next m = (some (.ok e), { c with pending := es }) := by
  rw [next, if_neg (by simp [hfailed])]
  split
  · next e' es' hpending =>
    rw [h] at hpending
    cases hpending
    rfl
  · next hpending =>
    rw [h] at hpending
    cases hpending

/-- Without an event at hand, the next block is made. -/
theorem next_of_advance (hfailed : c.failed = false) (hpending : c.pending = []) :
    c.next m =
      match c.advance m with
      | (.ok true, c') => c'.next m
      | (.ok false, c') => (none, c')
      | (.error e, c') => (some (.error e), { c' with pending := [], failed := true }) := by
  rw [next, if_neg (by simp [hfailed])]
  split
  · next hcons =>
    rw [hpending] at hcons
    cases hcons
  · split <;> simp [*]

theorem next_of_failed (h : c.failed = true) : c.next m = (none, c) := by
  rw [next, if_pos h]

/-- A block is yielded before all that comes after it. -/
theorem Yields.block (h : Yields m c es failure) (hfailed : c.failed = false)
    (hpending : c.pending = []) (block : List Event) :
    Yields m { c with pending := block } (block ++ es) failure := by
  induction block with
  | nil =>
    have hsame : { c with pending := [] } = c := by rw [← hpending]
    rw [hsame]
    exact h
  | cons e block ih => exact .event (next_of_pending hfailed rfl) ih

/-- Cursors that go on alike yield the same. -/
theorem Yields.of_next_eq (h : Yields m c' es failure) (hnext : c.next m = c'.next m) :
    Yields m c es failure := by
  cases h with
  | done h hend => exact .done (hnext.trans h) hend
  | failed h hend => exact .failed (hnext.trans h) hend
  | event h hrest => exact .event (hnext.trans h) hrest

/-- **One block of a walk**, from the cursor before it to the one after it. -/
theorem Yields.of_advance {block : List Event} (h : Yields m c' es failure)
    (hfailed : c.failed = false) (hpending : c.pending = [])
    (hfailed' : c'.failed = false) (hpending' : c'.pending = [])
    (hadvance : c.advance m = (.ok true, { c' with pending := block })) :
    Yields m c (block ++ es) failure := by
  refine .of_next_eq (h.block hfailed' hpending' block) ?_
  rw [next_of_advance hfailed hpending, hadvance]

/-- A failure is the last that a cursor yields. -/
theorem Yields.of_error {e : Error} (hfailed : c.failed = false) (hpending : c.pending = [])
    (h : c.advance m = (.error e, c')) : Yields m c [] (some e) := by
  have hnext : c.next m = (some (.error e), { c' with pending := [], failed := true }) := by
    rw [next_of_advance hfailed hpending, h]
  exact .failed hnext (next_of_failed rfl)

/-! ## The walk -/

/-- The cursor between two blocks: these module references are before it and those names behind, and
of the classes that were asked for, those with the names `expanded` are behind it. -/
def between (modules : List ModuleRef) (visited expanded : List String) (asked : List TypeDecl) :
    Cursor where
  modules
  visited
  classes := fresh TypeDecl.name expanded asked
  seen := marked TypeDecl.name expanded asked

theorem take_between {modules : List ModuleRef} {visited expanded : List String}
    {asked : List TypeDecl} {block : List Event} :
    take m (between modules visited expanded asked) block =
      { between modules visited expanded (asked ++ m.requestedClasses block) with
        pending := block } := by
  rw [take_eq, between, between, BreadthFirst.fresh_append, BreadthFirst.marked_append]
  rfl

/-- The classes are yielded in breadth-first order. -/
theorem yields_classes (visited : List String) (expanded : List String) (asked : List TypeDecl)
    (hasked : ∀ d ∈ asked, m.get? d.name = some d) :
    Yields m (between [] visited expanded asked)
      ((visit TypeDecl.name m.successors m.names expanded asked).flatMap m.classBlock) none := by
  induction expanded, asked using BreadthFirst.visit.induct TypeDecl.name m.successors m.names with
  | case1 expanded =>
    have hnext : (between [] visited expanded []).next m =
        (none, between [] visited expanded []) := by
      rw [next_of_advance rfl rfl]
      rfl
    rw [visit]
    exact .done hnext hnext
  | case2 expanded d rest hd ih =>
    have hsame : between [] visited expanded (d :: rest) = between [] visited expanded rest := by
      simp [between, fresh, marked, hd]
    rw [hsame, BreadthFirst.visit_cons_of_mem hd]
    exact ih fun d hd => hasked d (List.mem_cons_of_mem _ hd)
  | case3 expanded d rest hd hscope _ ih =>
    rw [visit, dif_neg hd, dif_pos hscope, List.flatMap_cons]
    have hnext : ∀ x ∈ rest ++ m.successors d, m.get? x.name = some x := by
      intro x hx
      rcases List.mem_append.1 hx with hx | hx
      · exact hasked x (List.mem_cons_of_mem _ hx)
      · exact Model.get?_of_mem_requestedClasses hx
    refine (ih hnext).of_advance rfl rfl rfl rfl ?_
    -- the head of the queue is the next class to visit, and the rest is what is new after it
    have hpop : { between [] visited expanded (d :: rest) with
        classes := fresh TypeDecl.name (d.name :: expanded) rest } =
          between [] visited (d.name :: expanded) rest := by
      simp [between, fresh, marked, hd]
    unfold Model.successors
    rw [← take_between, ← hpop]
    simp [advance, between, fresh, hd]
  | case4 expanded d rest hd hscope ih =>
    exact absurd (Model.name_mem_names_of_get? (hasked d List.mem_cons_self)) hscope

/-- What is left of a walk that has these module references before it and these classes asked for. -/
def remaining (m : Model) (asked : List TypeDecl) (order : List ModuleRef) : Walk :=
  let (modules, failure) := untilFailure m.module? order
  let events := modules.flatMap m.moduleBlock
  match failure with
  | some e => ⟨events, some e⟩
  | none =>
    ⟨events ++ (m.classOrder (asked ++ m.requestedClasses events)).flatMap m.classBlock, none⟩

theorem remaining_nil (asked : List TypeDecl) :
    remaining m asked [] = ⟨(m.classOrder asked).flatMap m.classBlock, none⟩ := by
  simp [remaining, untilFailure, Model.requestedClasses]

theorem remaining_error {asked : List TypeDecl} {r : ModuleRef} {order : List ModuleRef}
    {e : Error} (h : m.module? r = .error e) : remaining m asked (r :: order) = ⟨[], some e⟩ := by
  simp [remaining, untilFailure, h]

theorem remaining_ok {asked : List TypeDecl} {r : ModuleRef} {order : List ModuleRef}
    {d : TypeDecl} (h : m.module? r = .ok d) :
    remaining m asked (r :: order) =
      { remaining m (asked ++ m.requestedClasses (m.moduleBlock d)) order with
        events := m.moduleBlock d ++
          (remaining m (asked ++ m.requestedClasses (m.moduleBlock d)) order).events } := by
  unfold remaining
  simp only [untilFailure, h]
  cases (untilFailure m.module? order).2 with
  | some e => simp
  | none => simp [Model.requestedClasses_append]

/-- A reference to a module that was visited makes no difference. -/
theorem next_between_cons {modules : List ModuleRef} {visited : List String}
    {asked : List TypeDecl} {r : ModuleRef} (h : r.name ∈ visited) :
    (between (r :: modules) visited [] asked).next m = (between modules visited [] asked).next m := by
  have hadvance : (between (r :: modules) visited [] asked).advance m =
      (between modules visited [] asked).advance m := by
    unfold advance between
    dsimp only
    rw [List.dropWhile_cons_of_pos (by simp [h])]
  rw [next_of_advance rfl rfl, next_of_advance rfl rfl, hadvance]

/-- The block of a module that is new. -/
theorem advance_between_cons {modules : List ModuleRef} {visited : List String}
    {asked : List TypeDecl} {r : ModuleRef} {d : TypeDecl} (hr : r.name ∉ visited)
    (hd : m.module? r = .ok d) :
    (between (r :: modules) visited [] asked).advance m =
      (.ok true,
        { between (modules ++ m.includedRefs r) (r.name :: visited) []
            (asked ++ m.requestedClasses (m.moduleBlock d)) with
          pending := m.moduleBlock d }) := by
  rw [← take_between, Model.includedRefs_of_module? hd]
  simp [advance, between, hr, hd]

theorem yields_between_of_error {modules : List ModuleRef} {visited : List String}
    {asked : List TypeDecl} {r : ModuleRef} {e : Error} (hr : r.name ∉ visited)
    (he : m.module? r = .error e) :
    Yields m (between (r :: modules) visited [] asked) [] (some e) := by
  have hadvance : (between (r :: modules) visited [] asked).advance m =
      (.error e, between modules (r.name :: visited) [] asked) := by
    simp [advance, between, hr, he]
  exact .of_error rfl rfl hadvance

/-- The modules are yielded in breadth-first order, and after them the classes. -/
theorem yields_modules (visited : List String) (modules : List ModuleRef) (asked : List TypeDecl)
    (hasked : ∀ d ∈ asked, m.get? d.name = some d) :
    Yields m (between modules visited [] asked)
      (remaining m asked (visit ModuleRef.name m.includedRefs m.names visited modules)).events
      (remaining m asked (visit ModuleRef.name m.includedRefs m.names visited modules)).failure := by
  induction visited, modules using BreadthFirst.visit.induct ModuleRef.name m.includedRefs
    m.names generalizing asked with
  | case1 visited =>
    rw [visit, remaining_nil]
    exact yields_classes visited [] asked hasked
  | case2 visited r rest hr ih =>
    rw [BreadthFirst.visit_cons_of_mem hr]
    exact (ih asked hasked).of_next_eq (next_between_cons hr)
  | case3 visited r rest hr hscope _ ih =>
    rw [visit, dif_neg hr, dif_pos hscope]
    cases hd : m.module? r with
    | error e =>
      rw [remaining_error hd]
      exact yields_between_of_error hr hd
    | ok d =>
      rw [remaining_ok hd]
      have hasked' : ∀ x ∈ asked ++ m.requestedClasses (m.moduleBlock d),
          m.get? x.name = some x := by
        intro x hx
        rcases List.mem_append.1 hx with hx | hx
        · exact hasked x hx
        · exact Model.get?_of_mem_requestedClasses hx
      exact (ih _ hasked').of_advance rfl rfl rfl rfl (advance_between_cons hr hd)
  | case4 visited r rest hr hscope _ =>
    rw [visit, dif_neg hr, dif_neg hscope]
    cases hd : m.module? r with
    | error e =>
      rw [remaining_error hd]
      exact yields_between_of_error hr hd
    | ok d =>
      -- a module that is found is declared
      exact absurd (Model.name_mem_names_of_get? (Model.module?_eq_ok_iff.1 hd).1) hscope

theorem walk_eq_remaining {root : String} {component : TypeDecl}
    (h : m.component? root = .ok component) :
    m.walk root =
      { remaining m (m.requestedClasses (Model.componentBlock component))
          (m.moduleOrder component) with
        events := Model.componentBlock component ++
          (remaining m (m.requestedClasses (Model.componentBlock component))
            (m.moduleOrder component)).events } := by
  unfold Model.walk remaining
  rw [h]
  dsimp only
  cases (untilFailure m.module? (m.moduleOrder component)).2 with
  | some e => rfl
  | none => simp [Model.requestedClasses_append]

theorem advance_start {root : String} {component : TypeDecl}
    (h : m.component? root = .ok component) :
    (start root).advance m =
      (.ok true,
        { between component.moduleRefs [] []
            (m.requestedClasses (Model.componentBlock component)) with
          pending := Model.componentBlock component }) := by
  have htake : take m (between component.moduleRefs [] [] []) (Model.componentBlock component) =
      { between component.moduleRefs [] []
          ([] ++ m.requestedClasses (Model.componentBlock component)) with
        pending := Model.componentBlock component } := take_between
  rw [List.nil_append] at htake
  rw [← htake]
  simp [advance, start, h, between, fresh, marked]

/-- **A cursor yields the walk.** -/
theorem yields_walk (m : Model) (root : String) :
    Yields m (start root) (m.walk root).events (m.walk root).failure := by
  cases hroot : m.component? root with
  | error e =>
    have hadvance : (start root).advance m = (.error e, {}) := by
      simp [advance, start, hroot]
    have hwalk : m.walk root = ⟨[], some e⟩ := by
      rw [Model.walk, hroot]
    rw [hwalk]
    exact .of_error rfl rfl hadvance
  | ok component =>
    rw [walk_eq_remaining hroot]
    have hmodules := yields_modules [] component.moduleRefs
      (m.requestedClasses (Model.componentBlock component))
      fun d hd => Model.get?_of_mem_requestedClasses hd
    exact hmodules.of_advance rfl rfl rfl rfl (advance_start hroot)

end Cursor

end Wiring
