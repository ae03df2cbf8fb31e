import Mathlib.Data.List.Nodup
import Wiring.Model.Builtin
import Wiring.Proofs.Model.Basic
import Wiring.Proofs.Order.SortedMap

/-!
# Declarations put into a model

A declaration takes the place of one of its name and leaves the others alone. A model is determined
by what it finds under each name, so declarations of distinct names make the same model in any order.
-/

namespace Wiring.Model

variable {m m' : Model} {d d' : TypeDecl} {ds ds' : List TypeDecl} {name : String}

theorem compareName_eq_eq_iff : TypeDecl.compareName d d' = .eq ↔ d.name = d'.name :=
  Std.LawfulEqOrd.compare_eq_iff_eq

/-- A name leads to the declaration that has it. -/
theorem get?_eq_some_iff : m.get? name = some d ↔ d ∈ m.types ∧ d.name = name := by
  constructor
  · intro h
    exact ⟨List.mem_of_find?_eq_some h, name_of_get? h⟩
  · rintro ⟨hd, rfl⟩
    obtain ⟨d', hd'⟩ : ∃ d', m.get? d.name = some d' := by
      rw [← Option.isSome_iff_exists, get?, List.find?_isSome]
      exact ⟨d, hd, by simp⟩
    have hname : TypeDecl.compareName d' d = .eq := compareName_eq_eq_iff.2 (name_of_get? hd')
    rw [hd', m.ascending.eq_of_compare_eq (List.mem_of_find?_eq_some hd') hd hname]

theorem get?_insert :
    (m.insert d).get? name = if d.name = name then some d else m.get? name := by
  refine Option.ext fun d' => ?_
  rw [get?_eq_some_iff, insert, Ascending.IsAscending.mem_insert_iff m.ascending, Ne,
    compareName_eq_eq_iff]
  split
  · next hname =>
    rw [Option.some_inj]
    constructor
    · rintro ⟨rfl | ⟨_, hne⟩, hname'⟩
      · rfl
      · exact absurd (hname.trans hname'.symm) hne
    · rintro rfl
      exact ⟨.inl rfl, hname⟩
  · next hname =>
    rw [get?_eq_some_iff]
    constructor
    · rintro ⟨rfl | ⟨hd', _⟩, hname'⟩
      · exact absurd hname' hname
      · exact ⟨hd', hname'⟩
    · rintro ⟨hd', rfl⟩
      exact ⟨.inr ⟨hd', hname⟩, rfl⟩

/-- **A model is determined by what it finds** under each name. -/
theorem eq_of_get?_eq (h : ∀ name, m.get? name = m'.get? name) : m = m' := by
  have hmem : ∀ d, d ∈ m.types ↔ d ∈ m'.types := by
    intro d
    have hd : ∀ m : Model, d ∈ m.types ↔ m.get? d.name = some d := by
      intro m
      rw [get?_eq_some_iff]
      simp
    rw [hd m, hd m', h]
  have htypes : m.types = m'.types := m.ascending.eq_of_mem_iff m'.ascending hmem
  cases m
  cases m'
  cases htypes
  rfl

/-! ## Many declarations -/

theorem get?_insertAll_of_not_mem (h : name ∉ ds.map (·.name)) :
    (m.insertAll ds).get? name = m.get? name := by
  induction ds generalizing m with
  | nil => rfl
  | cons d ds ih =>
    obtain ⟨hd, hds⟩ := List.ne_and_not_mem_of_not_mem_cons h
    rw [insertAll, List.foldl_cons, ← insertAll, ih hds, get?_insert, if_neg hd.symm]

theorem get?_insertAll_of_mem (hds : (ds.map (·.name)).Nodup) (hd : d ∈ ds) :
    (m.insertAll ds).get? d.name = some d := by
  induction ds generalizing m with
  | nil => cases hd
  | cons d' ds ih =>
    obtain ⟨hd', hds⟩ := List.nodup_cons.1 hds
    rw [insertAll, List.foldl_cons, ← insertAll]
    rcases List.mem_cons.1 hd with rfl | hd
    · rw [get?_insertAll_of_not_mem hd', get?_insert, if_pos rfl]
    · exact ih hds hd

/-- **Declarations of distinct names** make the same model in any order. -/
theorem insertAll_eq_of_perm (hds : (ds.map (·.name)).Nodup) (hperm : ds.Perm ds') :
    m.insertAll ds = m.insertAll ds' := by
  have hds' : (ds'.map (·.name)).Nodup := (hperm.map _).nodup_iff.1 hds
  refine eq_of_get?_eq fun name => ?_
  by_cases hname : name ∈ ds.map (·.name)
  · obtain ⟨d, hd, rfl⟩ := List.mem_map.1 hname
    rw [get?_insertAll_of_mem hds hd, get?_insertAll_of_mem hds' (hperm.mem_iff.1 hd)]
  · rw [get?_insertAll_of_not_mem hname,
      get?_insertAll_of_not_mem fun hmem => hname ((hperm.map _).mem_iff.2 hmem)]

/-! ## Builtin types -/

theorem get?_builtin_of_mem (hd : d ∈ builtinTypes) : builtin.get? d.name = some d :=
  get?_insertAll_of_mem (by decide) hd

theorem get?_builtin_of_not_mem (h : name ∉ builtinTypes.map (·.name)) : builtin.get? name = none :=
  get?_insertAll_of_not_mem h

end Wiring.Model
