import Mathlib.Order.Lattice.Nat
import Wiring.Proofs.Model.Basic
import Wiring.Proofs.Order.BreadthFirst
import Wiring.Walk.Basic

/-!
# Reachable modules

A component leads to the modules of its list, and from there through the lists of these to others.
Where every reference leads to a module, a walk comes to exactly the names that can be reached so,
each once, and to none before another that fewer references lead to.
-/

namespace Wiring.Model

open BreadthFirst (Path At Searchable)

variable {m : Model} {c d : TypeDecl} {r r' : ModuleRef} {name included : String} {n : Nat}

/-- A chain of so many module references leads from the component `c` to a name. -/
inductive Includes (m : Model) (c : TypeDecl) : Nat → String → Prop
  | direct {name : String} (h : name ∈ c.modules) : Includes m c 1 name
  | step {n : Nat} {name included : String} {d : TypeDecl} (h : Includes m c n name)
    (hd : m.get? name = some d) (hi : included ∈ d.modules) : Includes m c (n + 1) included

/-- The length of the shortest chain of references that leads from `c` to a name. -/
noncomputable def includeDistance (m : Model) (c : TypeDecl) (name : String) : Nat :=
  sInf {n | m.Includes c n name}

/-! ## References -/

theorem module?_eq_ok_iff : m.module? r = .ok d ↔ m.get? r.name = some d ∧ d.kind = .module := by
  unfold module?
  split
  · next hnone => simp [hnone]
  · next d' hd' =>
    rw [hd']
    split
    · next hkind =>
      constructor
      · rintro ⟨⟩
        exact ⟨rfl, hkind⟩
      · intro h
        obtain ⟨⟨⟩, _⟩ := h
        rfl
    · next hkind =>
      refine ⟨nofun, ?_⟩
      intro h
      obtain ⟨⟨⟩, hmodule⟩ := h
      exact absurd hmodule hkind

theorem mem_moduleRefs_iff : r ∈ d.moduleRefs ↔ r.name ∈ d.modules ∧ r.referencedBy = d.name := by
  unfold TypeDecl.moduleRefs
  rw [List.mem_map]
  constructor
  · intro h
    obtain ⟨name, hname, rfl⟩ := h
    exact ⟨hname, rfl⟩
  · intro h
    obtain ⟨hname, hby⟩ := h
    exact ⟨r.name, hname, by rw [← hby]⟩

theorem includedRefs_of_module? (h : m.module? r = .ok d) : m.includedRefs r = d.moduleRefs := by
  rw [includedRefs, h]

theorem mem_includedRefs_iff : r' ∈ m.includedRefs r ↔ ∃ d, m.module? r = .ok d ∧ r' ∈ d.moduleRefs := by
  unfold includedRefs
  split
  · next d hd => simp [hd]
  · next e he => simp [he]

/-- What a reference leads to is a matter of its name. -/
theorem includedRefs_eq_of_name_eq (h : r.name = r'.name) :
    m.includedRefs r = m.includedRefs r' := by
  have hmodule : ∀ d, m.module? r = .ok d ↔ m.module? r' = .ok d := by
    intro d
    rw [module?_eq_ok_iff, module?_eq_ok_iff, h]
  cases hr : m.module? r with
  | ok d => rw [includedRefs_of_module? hr, includedRefs_of_module? ((hmodule d).1 hr)]
  | error e =>
    cases hr' : m.module? r' with
    | ok d =>
      rw [(hmodule d).2 hr'] at hr
      cases hr
    | error e' => rw [includedRefs, includedRefs, hr, hr']

theorem searchable_modules (m : Model) (c : TypeDecl) :
    Searchable ModuleRef.name m.includedRefs m.names c.moduleRefs where
  next_eq := fun _ _ h => includedRefs_eq_of_name_eq h
  next_eq_nil := by
    intro n r _ hname
    cases hr : m.module? r with
    | ok d => exact absurd (name_mem_names_of_get? (module?_eq_ok_iff.1 hr).1) hname
    | error e => rw [includedRefs, hr]

/-! ## Chains of references -/

theorem includes_of_path (h : Path m.includedRefs c.moduleRefs n r) :
    m.Includes c (n + 1) r.name := by
  induction h with
  | start h => exact .direct (mem_moduleRefs_iff.1 h).1
  | step _ hb ih =>
    obtain ⟨d, hd, hb⟩ := mem_includedRefs_iff.1 hb
    exact .step ih (module?_eq_ok_iff.1 hd).1 (mem_moduleRefs_iff.1 hb).1

section

variable (hmodules : ∀ r ∈ m.moduleOrder c, ∃ d, m.module? r = .ok d)

include hmodules

/-- A chain is followed to its end, for every reference in it leads to a module. -/
theorem at_of_includes (h : m.Includes c n name) :
    ∃ k, n = k + 1 ∧ At ModuleRef.name m.includedRefs c.moduleRefs k name := by
  induction h with
  | direct h => exact ⟨0, rfl, ⟨_, c.name⟩, .start (mem_moduleRefs_iff.2 ⟨h, rfl⟩), rfl⟩
  | @step n name included d _ hd hi ih =>
    obtain ⟨k, rfl, r, hr, rfl⟩ := ih
    -- the walk came to this name, by a reference that leads to a module
    have hmem : r.name ∈ (m.moduleOrder c).map ModuleRef.name :=
      (BreadthFirst.mem_keys_visit_iff (searchable_modules m c)).2 ⟨k, r, hr, rfl⟩
    obtain ⟨r', hr', hname⟩ := List.mem_map.1 hmem
    obtain ⟨d', hd'⟩ := hmodules r' hr'
    have hmodule : m.module? r = .ok d := by
      rw [module?_eq_ok_iff, hname, hd] at hd'
      obtain ⟨⟨⟩, hkind⟩ := hd'
      exact module?_eq_ok_iff.2 ⟨hd, hkind⟩
    refine ⟨k + 1, rfl, ⟨included, d.name⟩, .step hr ?_, rfl⟩
    rw [includedRefs_of_module? hmodule]
    exact mem_moduleRefs_iff.2 ⟨hi, rfl⟩

theorem includes_iff :
    m.Includes c (n + 1) name ↔ At ModuleRef.name m.includedRefs c.moduleRefs n name := by
  constructor
  · intro h
    obtain ⟨k, hk, hat⟩ := at_of_includes hmodules h
    cases hk
    exact hat
  · rintro ⟨r, hr, rfl⟩
    exact includes_of_path hr

/-- **A walk comes to exactly the modules that can be reached.** -/
theorem mem_names_moduleOrder_iff :
    name ∈ (m.moduleOrder c).map ModuleRef.name ↔ ∃ n, m.Includes c n name := by
  rw [moduleOrder, BreadthFirst.mem_keys_visit_iff (searchable_modules m c)]
  constructor
  · rintro ⟨n, hat⟩
    exact ⟨n + 1, (includes_iff hmodules).2 hat⟩
  · rintro ⟨n, h⟩
    obtain ⟨k, _, hat⟩ := at_of_includes hmodules h
    exact ⟨k, hat⟩

/-- **No module comes before another that fewer references lead to.** -/
theorem pairwise_moduleOrder :
    (m.moduleOrder c).Pairwise fun a b =>
      m.includeDistance c a.name ≤ m.includeDistance c b.name := by
  refine List.Pairwise.imp_of_mem ?_
    (BreadthFirst.level_zero.pairwise_visit (searchable_modules m c))
  intro a b _ hb hle
  have hreached : ∃ n, m.Includes c n b.name :=
    (mem_names_moduleOrder_iff hmodules).1 (List.mem_map_of_mem hb)
  obtain ⟨k, hk, hat⟩ := at_of_includes hmodules (Nat.sInf_mem hreached)
  obtain ⟨i, hi, hat⟩ := hle k hat
  calc m.includeDistance c a.name
      _ ≤ i + 1 := Nat.sInf_le ((includes_iff hmodules).2 hat)
      _ ≤ k + 1 := Nat.succ_le_succ hi
      _ = m.includeDistance c b.name := hk.symm

end

end Wiring.Model
