import Mathlib
import Wiring.Model.Load
import Wiring.Proofs.Except
import Wiring.Proofs.Files.Tree
import Wiring.Proofs.Model.Insertion

/-!
# Models from many documents

The declarations of all documents stand in one line, in the order in which they are read. A model can
be loaded from them if no two have one name; otherwise the first one whose name was declared before
is refused, with a pointer to the document that declared it. What model results does not depend on
the order. The builtin types are apart from all this: a declaration takes the place of a builtin one.
-/

namespace Wiring

variable {declared entries : DeclaredIn} {entry : TypeDecl × String} {file previous path : String}
  {ds : List TypeDecl} {d : TypeDecl} {files : Files} {parsed : List (String × List TypeDecl)}

namespace DeclaredIn

/-- The names that are declared, in order. -/
def names (declared : DeclaredIn) : List String := declared.map (·.1.name)

theorem names_eq_map (declared : DeclaredIn) :
    declared.names = (declared.map (·.1)).map (·.name) :=
  (List.map_map ..).symm

end DeclaredIn

/-- The error of a declaration of a name that `previous` declares. -/
def redeclaration (entry : TypeDecl × String) (previous : String) : Error :=
  .modelParse entry.2 ("type '" ++ entry.1.name ++ "' is already declared in " ++ previous)

/-- Adds one declaration to those before. -/
def declare (declared : DeclaredIn) (entry : TypeDecl × String) : Except Error DeclaredIn :=
  match declared.find? (·.1.name == entry.1.name) with
  | some (_, previous) => .error (redeclaration entry previous)
  | none => .ok (declared ++ [entry])

/-- Among `entries` the first one whose name was declared before is `entry`, and `previous` is the
document that declared it. -/
def FirstRedeclared (entries : DeclaredIn) (entry : TypeDecl × String) (previous : String) : Prop :=
  ∃ before after d, entries = before ++ entry :: after ∧ before.names.Nodup ∧
    (d, previous) ∈ before ∧ d.name = entry.1.name

/-! ## One declaration -/

theorem names_append (declared entries : DeclaredIn) :
    DeclaredIn.names (declared ++ entries) = declared.names ++ entries.names :=
  List.map_append

theorem declare_of_not_mem (h : entry.1.name ∉ declared.names) :
    declare declared entry = .ok (declared ++ [entry]) := by
  have hnone : declared.find? (·.1.name == entry.1.name) = none := by
    rw [List.find?_eq_none]
    intro x hx hname
    exact h (List.mem_map.2 ⟨x, hx, by simpa using hname⟩)
  rw [declare, hnone]

/-- A name that was declared before is refused with the document that declared it. -/
theorem declare_of_mem (hdeclared : declared.names.Nodup) (hmem : (d, previous) ∈ declared)
    (hname : d.name = entry.1.name) :
    declare declared entry = .error (redeclaration entry previous) := by
  obtain ⟨x, hx⟩ : ∃ x, declared.find? (·.1.name == entry.1.name) = some x := by
    rw [← Option.isSome_iff_exists, List.find?_isSome]
    exact ⟨_, hmem, by simpa using hname⟩
  have hxname : x.1.name = d.name := by
    rw [hname]
    simpa using List.find?_some hx
  have heq : x = (d, previous) :=
    List.inj_on_of_nodup_map hdeclared (List.mem_of_find?_eq_some hx) hmem hxname
  rw [declare, hx, heq]

/-! ## Declarations one after another -/

/-- Declarations of new and distinct names are all taken. -/
theorem foldlM_declare_eq_ok (h : (DeclaredIn.names (declared ++ entries)).Nodup) :
    entries.foldlM declare declared = .ok (declared ++ entries) := by
  induction entries generalizing declared with
  | nil => simp [pure, Except.pure]
  | cons entry entries ih =>
    have hnew : entry.1.name ∉ declared.names := by
      rw [names_append] at h
      exact fun hmem => List.disjoint_of_nodup_append h hmem List.mem_cons_self
    rw [List.append_cons] at h ⊢
    rw [List.foldlM_cons, declare_of_not_mem hnew]
    exact ih h

theorem foldlM_declare_of_nodup (h : entries.names.Nodup) :
    entries.foldlM declare [] = .ok entries :=
  foldlM_declare_eq_ok h

/-- The first declaration that repeats a name is refused. -/
theorem FirstRedeclared.foldlM_declare_eq_error (h : FirstRedeclared entries entry previous) :
    entries.foldlM declare [] = .error (redeclaration entry previous) := by
  obtain ⟨before, after, d, rfl, hbefore, hmem, hname⟩ := h
  rw [List.foldlM_append, foldlM_declare_of_nodup hbefore]
  show (entry :: after).foldlM declare before = _
  rw [List.foldlM_cons, declare_of_mem hbefore hmem hname]
  rfl

/-- If names are repeated at all, one of them is the first. -/
theorem exists_firstRedeclared (hdeclared : declared.names.Nodup)
    (h : ¬(DeclaredIn.names (declared ++ entries)).Nodup) :
    ∃ entry previous, FirstRedeclared (declared ++ entries) entry previous := by
  induction entries generalizing declared with
  | nil =>
    rw [List.append_nil] at h
    exact absurd hdeclared h
  | cons entry entries ih =>
    by_cases hnew : entry.1.name ∈ declared.names
    · obtain ⟨⟨d, previous⟩, hmem, hname⟩ := List.mem_map.1 hnew
      exact ⟨entry, previous, declared, entries, d, rfl, hdeclared, hmem, hname⟩
    · have hdeclared' : (DeclaredIn.names (declared ++ [entry])).Nodup := by
        rw [names_append]
        show (declared.names ++ [entry.1.name]).Nodup
        rw [← List.concat_eq_append]
        exact hdeclared.concat hnew
      rw [List.append_cons] at h ⊢
      exact ih hdeclared' h

theorem exists_firstRedeclared_of_not_nodup (h : ¬entries.names.Nodup) :
    ∃ entry previous, FirstRedeclared entries entry previous := by
  have hnil : (DeclaredIn.names []).Nodup := List.nodup_nil
  exact exists_firstRedeclared hnil h

/-! ## Documents -/

/-- A document's text parses, and holds these declarations. -/
def ParsesAs (document : String × ByteArray) (parsed : String × List TypeDecl) : Prop :=
  parsed.1 = document.1 ∧
    ∃ text, decodeText document.2 = .ok text ∧ readTypes text document.1 = .ok parsed.2

theorem decodeText_toUTF8 (text : String) : decodeText text.toUTF8 = .ok text := by
  have htext : String.fromUTF8? text.toUTF8 = some text := dif_pos text.isValidUTF8
  rw [decodeText, htext]

/-- The documents at a path all parse; these are their own paths and declarations, in the order in
which they are read. -/
def Files.Holds (files : Files) (path : String) (parsed : List (String × List TypeDecl)) : Prop :=
  ∃ documents, files.modelDocuments path = .ok documents ∧ List.Forall₂ ParsesAs documents parsed

/-- The declarations of some documents in one line. -/
def declarationsIn (parsed : List (String × List TypeDecl)) : DeclaredIn :=
  parsed.flatMap fun p => p.2.map (·, p.1)

section

variable {document : String × ByteArray} {documents : List (String × ByteArray)}
  {p : String × List TypeDecl} {m : Model} {f : Failure}

theorem addDeclarations_eq_foldlM :
    addDeclarations file ds declared = (ds.map (·, file)).foldlM declare declared := by
  induction ds generalizing declared with
  | nil => rfl
  | cons d ds ih =>
    rw [addDeclarations, List.map_cons, List.foldlM_cons, declare]
    cases declared.find? (·.1.name == d.name) with
    | some x => rfl
    | none => exact ih

theorem ParsesAs.readModelDocument_eq (h : ParsesAs document p) :
    readModelDocument declared document =
      ((p.2.map (·, p.1)).foldlM declare declared).mapError Failure.ofError := by
  obtain ⟨file, content⟩ := document
  obtain ⟨hfile, text, htext, htypes⟩ := h
  show ((decodeText content).mapError _ >>= fun text =>
    (readTypes text file >>= (addDeclarations file · declared)).mapError Failure.ofError) = _
  rw [htext]
  show (readTypes text file >>= (addDeclarations file · declared)).mapError Failure.ofError = _
  rw [htypes, hfile, ← addDeclarations_eq_foldlM]
  rfl

theorem map_fst_of_parsesAs (h : List.Forall₂ ParsesAs documents parsed) :
    parsed.map (·.1) = documents.map (·.1) := by
  induction h with
  | nil => rfl
  | cons hp _ ih => rw [List.map_cons, List.map_cons, hp.1, ih]

/-- Documents are read as their declarations are added, one after another. -/
theorem foldlM_readModelDocument (h : List.Forall₂ ParsesAs documents parsed) :
    documents.foldlM readModelDocument declared =
      ((declarationsIn parsed).foldlM declare declared).mapError Failure.ofError := by
  induction h generalizing declared with
  | nil => rfl
  | @cons document p documents parsed hp _ ih =>
    have hsplit : declarationsIn (p :: parsed) = p.2.map (·, p.1) ++ declarationsIn parsed :=
      List.flatMap_cons
    rw [List.foldlM_cons, hp.readModelDocument_eq, hsplit, List.foldlM_append]
    cases (p.2.map (·, p.1)).foldlM declare declared with
    | error e => rfl
    | ok after => exact ih

variable (h : files.Holds path parsed)

include h

theorem Files.Holds.load_eq :
    Model.load files path =
      (((declarationsIn parsed).foldlM declare []).mapError Failure.ofError >>= fun declared =>
        .ok (Model.builtin.insertAll (declared.map (·.1)))) := by
  obtain ⟨documents, hdocuments, hparsed⟩ := h
  rw [Model.load, hdocuments, ← foldlM_readModelDocument hparsed]
  rfl

theorem Files.Holds.load_of_nodup (hnames : (declarationsIn parsed).names.Nodup) :
    Model.load files path =
      .ok (Model.builtin.insertAll ((declarationsIn parsed).map (·.1))) := by
  rw [h.load_eq, foldlM_declare_of_nodup hnames]
  rfl

theorem Files.Holds.load_of_firstRedeclared
    (hfirst : FirstRedeclared (declarationsIn parsed) entry previous) :
    Model.load files path = .error (.ofError (redeclaration entry previous)) := by
  rw [h.load_eq, hfirst.foldlM_declare_eq_error]
  rfl

/-- **A model is loaded** exactly if no name is declared twice. -/
theorem Files.Holds.load_eq_ok_iff :
    Model.load files path = .ok m ↔ (declarationsIn parsed).names.Nodup ∧
      m = Model.builtin.insertAll ((declarationsIn parsed).map (·.1)) := by
  by_cases hnames : (declarationsIn parsed).names.Nodup
  · rw [h.load_of_nodup hnames]
    simp [hnames, eq_comm]
  · obtain ⟨entry, previous, hfirst⟩ := exists_firstRedeclared_of_not_nodup hnames
    rw [h.load_of_firstRedeclared hfirst]
    simp [hnames]

/-- **A model is refused** exactly for the first declaration that repeats a name. -/
theorem Files.Holds.load_eq_error_iff :
    Model.load files path = .error f ↔
      ∃ entry previous, FirstRedeclared (declarationsIn parsed) entry previous ∧
        f = .ofError (redeclaration entry previous) := by
  constructor
  · intro hf
    have hnames : ¬(declarationsIn parsed).names.Nodup := by
      intro hnames
      rw [h.load_of_nodup hnames] at hf
      cases hf
    obtain ⟨entry, previous, hfirst⟩ := exists_firstRedeclared_of_not_nodup hnames
    rw [h.load_of_firstRedeclared hfirst] at hf
    exact ⟨entry, previous, hfirst, (Except.error.inj hf).symm⟩
  · rintro ⟨entry, previous, hfirst, rfl⟩
    exact h.load_of_firstRedeclared hfirst

end

/-! ## Merged models -/

/-- What loading makes of the declarations in some documents. -/
structure Merged (files : Files) (path : String) (parsed : List (String × List TypeDecl)) :
    Prop where
  exists_load_eq_ok_iff :
    (∃ m, Model.load files path = .ok m) ↔ (declarationsIn parsed).names.Nodup
  get?_declared : ∀ m, Model.load files path = .ok m →
    ∀ entry ∈ declarationsIn parsed, m.get? entry.1.name = some entry.1
  get?_builtin : ∀ m, Model.load files path = .ok m →
    ∀ d ∈ builtinTypes, d.name ∉ (declarationsIn parsed).names → m.get? d.name = some d
  get?_other : ∀ m, Model.load files path = .ok m → ∀ name, name ∉ (declarationsIn parsed).names →
    name ∉ builtinTypes.map (·.name) → m.get? name = none
  /-- The same declarations in another order, or in other documents, make the same model. -/
  sameModel : ∀ files' path' parsed', Files.Holds files' path' parsed' →
    (parsed.flatMap (·.2)).Perm (parsed'.flatMap (·.2)) →
    ∀ m, Model.load files path = .ok m ↔ Model.load files' path' = .ok m
  /-- The error names the document of the first repeated declaration and the one before. -/
  load_eq_error_iff : ∀ f, Model.load files path = .error f ↔
    ∃ entry previous, FirstRedeclared (declarationsIn parsed) entry previous ∧
      f = .ofError (.modelParse entry.2
        ("type '" ++ entry.1.name ++ "' is already declared in " ++ previous))
  /-- Documents of a file tree are read in the order of their paths. -/
  inPathOrder : ∀ t : FileTree, files = t.find → parsed.map (·.1) = [path] ∨
    ∃ below : List (List String), parsed.map (·.1) = below.map (joinPath path) ∧
      below.Pairwise (· ≤ ·)

theorem map_fst_declarationsIn (parsed : List (String × List TypeDecl)) :
    (declarationsIn parsed).map (·.1) = parsed.flatMap (·.2) := by
  rw [declarationsIn, List.map_flatMap]
  exact List.flatMap_congr fun p _ => by simp [Function.comp_def]

theorem names_declarationsIn (parsed : List (String × List TypeDecl)) :
    (declarationsIn parsed).names = (parsed.flatMap (·.2)).map (·.name) := by
  rw [DeclaredIn.names_eq_map, map_fst_declarationsIn]

theorem Files.Holds.inPathOrder (h : files.Holds path parsed) {t : FileTree}
    (hfiles : files = t.find) : parsed.map (·.1) = [path] ∨
      ∃ below : List (List String), parsed.map (·.1) = below.map (joinPath path) ∧
        below.Pairwise (· ≤ ·) := by
  subst hfiles
  obtain ⟨documents, hdocuments, hparsed⟩ := h
  rw [map_fst_of_parsesAs hparsed]
  unfold Files.modelDocuments at hdocuments
  split at hdocuments
  · cases hdocuments
    exact .inl rfl
  · next below hbelow =>
    cases hdocuments
    refine .inr ⟨(below.filter fun f => f.path.getLast?.any isDocumentName).map (·.path), ?_, ?_⟩
    · simp [List.map_map, Function.comp_def]
    · exact List.pairwise_map.2 ((FileTree.pairwise_of_find hbelow).filter _)
  · cases hdocuments
  · cases hdocuments

/-- **Loading merges the declarations** of all documents that it finds. -/
theorem merged_of_holds (h : files.Holds path parsed) : Merged files path parsed where
  exists_load_eq_ok_iff := by
    simp only [h.load_eq_ok_iff, exists_and_left, exists_eq, and_true]
  get?_declared := by
    intro m hm entry hentry
    obtain ⟨hnames, rfl⟩ := h.load_eq_ok_iff.1 hm
    rw [DeclaredIn.names_eq_map] at hnames
    exact Model.get?_insertAll_of_mem hnames (List.mem_map_of_mem hentry)
  get?_builtin := by
    intro m hm d hd hname
    obtain ⟨_, rfl⟩ := h.load_eq_ok_iff.1 hm
    rw [DeclaredIn.names_eq_map] at hname
    rw [Model.get?_insertAll_of_not_mem hname, Model.get?_builtin_of_mem hd]
  get?_other := by
    intro m hm name hname hbuiltin
    obtain ⟨_, rfl⟩ := h.load_eq_ok_iff.1 hm
    rw [DeclaredIn.names_eq_map] at hname
    rw [Model.get?_insertAll_of_not_mem hname, Model.get?_builtin_of_not_mem hbuiltin]
  sameModel := by
    intro files' path' parsed' h' hperm m
    have hnames := (hperm.map (·.name)).nodup_iff
    rw [h.load_eq_ok_iff, h'.load_eq_ok_iff, names_declarationsIn, names_declarationsIn, hnames,
      map_fst_declarationsIn, map_fst_declarationsIn]
    refine and_congr_right fun hnodup => ?_
    rw [Model.insertAll_eq_of_perm (hnames.2 hnodup) hperm]
  load_eq_error_iff := fun _ => h.load_eq_error_iff
  inPathOrder := fun _ => h.inPathOrder

/-! Two documents: one declares a builtin type and a type that the other declares as well. -/

def exampleFirstText : String :=
  "[[types]]\nname = \"java.lang.String\"\n[[types]]\nname = \"a.A\"\n"

def exampleSecondText : String := "[[types]]\nname = \"a.B\"\n[[types]]\nname = \"a.A\"\n"

def exampleDocuments : Files := fun path =>
  if path = "m" then
    .directory [⟨["a.toml"], exampleFirstText.toUTF8⟩, ⟨["b.toml"], exampleSecondText.toUTF8⟩]
  else .missing

def exampleParsed : List (String × List TypeDecl) :=
  [ ("m/a.toml", [{ name := "java.lang.String" }, { name := "a.A" }]),
    ("m/b.toml", [{ name := "a.B" }, { name := "a.A" }]) ]

theorem holds_exampleDocuments : exampleDocuments.Holds "m" exampleParsed := by
  have hnames : isDocumentName "a.toml" = true ∧ isDocumentName "b.toml" = true := by
    decide +kernel
  have hpaths : joinPath "m" ["a.toml"] = "m/a.toml" ∧ joinPath "m" ["b.toml"] = "m/b.toml" := by
    decide +kernel
  have hfirst : readTypes exampleFirstText "m/a.toml" =
      .ok [{ name := "java.lang.String" }, { name := "a.A" }] := by
    cbv
  have hsecond : readTypes exampleSecondText "m/b.toml" =
      .ok [{ name := "a.B" }, { name := "a.A" }] := by
    cbv
  refine ⟨[("m/a.toml", exampleFirstText.toUTF8), ("m/b.toml", exampleSecondText.toUTF8)], ?_, ?_⟩
  · simp [Files.modelDocuments, exampleDocuments, hnames, hpaths]
  · exact .cons ⟨rfl, _, decodeText_toUTF8 _, hfirst⟩
      (.cons ⟨rfl, _, decodeText_toUTF8 _, hsecond⟩ .nil)

/-- The builtin type may be declared anew; the second declaration of the other type is refused. -/
theorem merged_example :
    exampleDocuments.Holds "m" exampleParsed ∧ Merged exampleDocuments "m" exampleParsed ∧
      Model.load exampleDocuments "m" = .error (.ofError
        (.modelParse "m/b.toml" "type 'a.A' is already declared in m/a.toml")) := by
  have hmerged := merged_of_holds holds_exampleDocuments
  refine ⟨holds_exampleDocuments, hmerged, (hmerged.load_eq_error_iff _).2 ?_⟩
  refine ⟨({ name := "a.A" }, "m/b.toml"), "m/a.toml", ⟨(declarationsIn exampleParsed).take 3, [],
    { name := "a.A" }, by decide, by decide, by decide, rfl⟩, by decide⟩

end Wiring
