import Mathlib.Data.List.Induction
import Mathlib.Data.List.Nodup
import Wiring.Config.Basic
import Wiring.Proofs.Order.UntilFailure

/-!
# Configured domains

A configured domain takes the place of the builtin one of its name, or stands behind all others if
there is none. Where no two configured domains have one name, which the check of a configuration
sees to, none of them takes the place of another one; so the domains that result have names of their
own, and a name selects one of them.
-/

namespace Wiring.Config

variable {c : Config} {base configured domains : List Domain} {d b : Domain} {name : String}

/-! ## The check -/

/-- Each domain is checked against those before it. -/
theorem checkDomains_eq_ok_iff {before : List Domain} (hbefore : (before.map (·.name)).Nodup) :
    checkDomains before configured = .ok () ↔
      (∀ d ∈ configured, d.name ≠ "" ∧ d.qualifier ≠ "") ∧
        ((before ++ configured).map (·.name)).Nodup := by
  induction configured generalizing before with
  | nil => simpa [checkDomains] using hbefore
  | cons d configured ih =>
    have hmet : before.any (·.name == d.name) = true ↔ d.name ∈ before.map (·.name) := by
      simp [List.mem_map]
    rw [checkDomains, List.forall_mem_cons]
    split
    · next hempty =>
      simp only [Bool.or_eq_true, String.isEmpty_iff] at hempty
      simp only [reduceCtorEq, false_iff]
      tauto
    · next hempty =>
      have hfilled : d.name ≠ "" ∧ d.qualifier ≠ "" := by simpa using hempty
      split
      · next hany =>
        simp only [reduceCtorEq, false_iff]
        rintro ⟨-, hnames⟩
        rw [List.map_append] at hnames
        exact List.disjoint_of_nodup_append hnames (hmet.1 hany) List.mem_cons_self
      · next hany =>
        have hbefore' : ((before ++ [d]).map (·.name)).Nodup := by
          rw [List.map_append, List.map_singleton, ← List.concat_eq_append]
          exact hbefore.concat (mt hmet.2 hany)
        rw [ih hbefore', ← List.append_cons, and_iff_right hfilled]

/-- **A configuration passes its check** exactly if its domains have names and qualifiers, and no
two have one name. -/
theorem check_eq_ok_iff :
    c.check = .ok () ↔
      (∀ d ∈ c.domains, d.name ≠ "" ∧ d.qualifier ≠ "") ∧ (c.domains.map (·.name)).Nodup :=
  checkDomains_eq_ok_iff List.nodup_nil

/-! ## One domain -/

theorem mergeDomain_of_not_mem (h : d.name ∉ domains.map (·.name)) :
    mergeDomain domains d = domains ++ [d] := by
  induction domains with
  | nil => rfl
  | cons e domains ih =>
    obtain ⟨hne, hrest⟩ := List.ne_and_not_mem_of_not_mem_cons h
    rw [mergeDomain, if_neg hne.symm, ih hrest, List.cons_append]

theorem mergeDomain_append (h : d.name ∈ domains.map (·.name)) (behind : List Domain) :
    mergeDomain (domains ++ behind) d = mergeDomain domains d ++ behind := by
  induction domains with
  | nil => cases h
  | cons e domains ih =>
    rw [List.cons_append, mergeDomain, mergeDomain]
    split
    · rfl
    · next hne =>
      rw [ih ((List.mem_cons.1 h).resolve_left (Ne.symm hne)), List.cons_append]

/-! ## Configured domains, one after another -/

/-- What stands in the place of a domain: the configured one of its name, if there is one. -/
def inPlaceOf (configured : List Domain) (b : Domain) : Domain :=
  (configured.find? (·.name == b.name)).getD b

theorem name_inPlaceOf (configured : List Domain) (b : Domain) :
    (inPlaceOf configured b).name = b.name := by
  unfold inPlaceOf
  cases h : configured.find? (·.name == b.name) with
  | none => rfl
  | some d => simpa using List.find?_some h

theorem inPlaceOf_eq_self (h : b.name ∉ configured.map (·.name)) : inPlaceOf configured b = b := by
  have hnone : configured.find? (·.name == b.name) = none := by
    rw [List.find?_eq_none]
    intro d hd hname
    exact h (List.mem_map.2 ⟨d, hd, by simpa using hname⟩)
  rw [inPlaceOf, hnone, Option.getD_none]

theorem inPlaceOf_eq_of_mem (hnames : (configured.map (·.name)).Nodup) (hd : d ∈ configured)
    (hname : d.name = b.name) : inPlaceOf configured b = d := by
  obtain ⟨e, he⟩ : ∃ e, configured.find? (·.name == b.name) = some e := by
    rw [← Option.isSome_iff_exists, List.find?_isSome]
    exact ⟨d, hd, by simpa using hname⟩
  have hsame : e.name = d.name := by
    rw [hname]
    simpa using List.find?_some he
  rw [inPlaceOf, he, Option.getD_some]
  exact List.inj_on_of_nodup_map hnames (List.mem_of_find?_eq_some he) hd hsame

theorem inPlaceOf_concat_of_ne (h : d.name ≠ b.name) :
    inPlaceOf (configured ++ [d]) b = inPlaceOf configured b := by
  simp [inPlaceOf, List.find?_append, h]

theorem map_name_inPlaceOf (configured base : List Domain) :
    (base.map (inPlaceOf configured)).map (·.name) = base.map (·.name) := by
  rw [List.map_map]
  exact List.map_congr_left fun b _ => name_inPlaceOf configured b

/-- One more configured domain takes the place of the one of its name. -/
theorem mergeDomain_map_inPlaceOf (hbase : (base.map (·.name)).Nodup)
    (hnames : ((configured ++ [d]).map (·.name)).Nodup) (h : d.name ∈ base.map (·.name)) :
    mergeDomain (base.map (inPlaceOf configured)) d = base.map (inPlaceOf (configured ++ [d])) := by
  induction base with
  | nil => cases h
  | cons b base ih =>
    obtain ⟨hb, hbase⟩ := List.nodup_cons.1 hbase
    rw [List.map_cons, List.map_cons, mergeDomain, name_inPlaceOf]
    split
    · next hname =>
      have hd : d ∈ configured ++ [d] := List.mem_append_right _ List.mem_cons_self
      rw [inPlaceOf_eq_of_mem hnames hd hname.symm]
      refine congrArg _ (List.map_congr_left fun b' hb' => (inPlaceOf_concat_of_ne ?_).symm)
      rintro heq
      exact hb (List.mem_map.2 ⟨b', hb', heq.symm.trans hname.symm⟩)
    · next hne =>
      rw [ih hbase ((List.mem_cons.1 h).resolve_left (Ne.symm hne)),
        inPlaceOf_concat_of_ne (Ne.symm hne)]

/-- The configured domains whose names are not among those of the others. -/
def additions (base configured : List Domain) : List Domain :=
  configured.filter fun d => d.name ∉ base.map (·.name)

theorem mem_additions_iff :
    d ∈ additions base configured ↔ d ∈ configured ∧ d.name ∉ base.map (·.name) := by
  rw [additions, List.mem_filter, decide_eq_true_iff]

/-- **Domains that are merged one after another** replace those of their names in place, and the
other ones stand behind them, in order. -/
theorem foldl_mergeDomain (hbase : (base.map (·.name)).Nodup)
    (hnames : (configured.map (·.name)).Nodup) :
    configured.foldl mergeDomain base =
      base.map (inPlaceOf configured) ++ additions base configured := by
  induction configured using List.reverseRecOn with
  | nil =>
    have hself : ∀ b ∈ base, inPlaceOf [] b = b := fun b _ => rfl
    rw [List.foldl_nil, List.map_congr_left hself, List.map_id', additions, List.filter_nil,
      List.append_nil]
  | append_singleton configured d ih =>
    have hsplit := hnames
    rw [List.map_append] at hsplit
    have hnew : d.name ∉ configured.map (·.name) := fun hmem =>
      List.disjoint_of_nodup_append hsplit hmem List.mem_cons_self
    rw [List.foldl_concat, ih hsplit.of_append_left]
    by_cases hd : d.name ∈ base.map (·.name)
    · have hplace : d.name ∈ (base.map (inPlaceOf configured)).map (·.name) := by
        rwa [map_name_inPlaceOf]
      have hadded : additions base (configured ++ [d]) = additions base configured := by
        rw [additions, List.filter_append, List.filter_cons_of_neg (by simpa using hd)]
        exact List.append_nil _
      rw [mergeDomain_append hplace, mergeDomain_map_inPlaceOf hbase hnames hd, hadded]
    · have hplace : base.map (inPlaceOf (configured ++ [d])) = base.map (inPlaceOf configured) :=
        List.map_congr_left fun b hb => inPlaceOf_concat_of_ne fun heq =>
          hd (heq ▸ List.mem_map_of_mem hb)
      have hadded : additions base (configured ++ [d]) = additions base configured ++ [d] := by
        rw [additions, List.filter_append, List.filter_cons_of_pos (by simpa using hd)]
        rfl
      have hunmet : d.name ∉
          (base.map (inPlaceOf configured) ++ additions base configured).map (·.name) := by
        rw [List.map_append, map_name_inPlaceOf, List.mem_append, not_or]
        exact ⟨hd, fun hmem => hnew (List.map_subset _ (List.filter_subset_self _) hmem)⟩
      rw [mergeDomain_of_not_mem hunmet, hplace, hadded, List.append_assoc]

/-! ## All domains -/

theorem nodup_names_builtin : (Domain.builtin.map (·.name)).Nodup := by
  decide

section

variable (h : c.check = .ok ())

include h

theorem allDomains_eq :
    c.allDomains = Domain.builtin.map (inPlaceOf c.domains) ++ additions Domain.builtin c.domains :=
  foldl_mergeDomain nodup_names_builtin (check_eq_ok_iff.1 h).2

theorem nodup_names_allDomains : (c.allDomains.map (·.name)).Nodup := by
  rw [allDomains_eq h, List.map_append, map_name_inPlaceOf]
  refine nodup_names_builtin.append ?_ fun name hbuiltin hadded => ?_
  · exact (check_eq_ok_iff.1 h).2.sublist ((List.filter_sublist).map _)
  · obtain ⟨d, hd, rfl⟩ := List.mem_map.1 hadded
    exact (mem_additions_iff.1 hd).2 hbuiltin

theorem mem_allDomains_of_mem (hd : d ∈ c.domains) : d ∈ c.allDomains := by
  rw [allDomains_eq h, List.mem_append]
  by_cases hname : d.name ∈ Domain.builtin.map (·.name)
  · obtain ⟨b, hb, hname⟩ := List.mem_map.1 hname
    refine .inl (List.mem_map.2 ⟨b, hb, ?_⟩)
    exact inPlaceOf_eq_of_mem (check_eq_ok_iff.1 h).2 hd hname.symm
  · exact .inr (mem_additions_iff.2 ⟨hd, hname⟩)

theorem getElem?_allDomains {i : Nat} (hb : Domain.builtin[i]? = some b) :
    c.allDomains[i]? = some (inPlaceOf c.domains b) := by
  have hi : i < (Domain.builtin.map (inPlaceOf c.domains)).length := by
    rw [List.length_map]
    exact (List.getElem?_eq_some_iff.1 hb).1
  rw [allDomains_eq h, List.getElem?_append_left hi, List.getElem?_map, hb, Option.map_some]

theorem drop_allDomains :
    c.allDomains.drop Domain.builtin.length = additions Domain.builtin c.domains := by
  rw [allDomains_eq h]
  exact List.drop_left' (List.length_map _)

end

/-! ## Selected domains -/

theorem find?_name_eq_none_iff :
    domains.find? (·.name == name) = none ↔ name ∉ domains.map (·.name) := by
  simp [List.find?_eq_none, List.mem_map]

/-- The error about a name that no domain has. -/
def unknownDomain (c : Config) (name : String) : Failure :=
  .ofMessage ("Unknown domain '" ++ name ++ "' (known domains: " ++
    ", ".intercalate (c.allDomains.map (·.name)) ++ ")")

theorem domain?_eq_error_iff {f : Failure} :
    c.domain? name = .error f ↔ name ∉ c.allDomains.map (·.name) ∧ f = c.unknownDomain name := by
  rw [← find?_name_eq_none_iff, domain?]
  cases c.allDomains.find? (·.name == name) with
  | none => simp [unknownDomain, eq_comm]
  | some d => simp

theorem exists_domain?_eq_ok_iff :
    (∃ d, c.domain? name = .ok d) ↔ name ∈ c.allDomains.map (·.name) := by
  rw [← not_iff_not, ← find?_name_eq_none_iff, domain?]
  cases c.allDomains.find? (·.name == name) <;> simp

/-- **A name selects the domain that has it**, of which there is only one. -/
theorem domain?_eq_ok_iff (hnames : (c.allDomains.map (·.name)).Nodup) :
    c.domain? name = .ok d ↔ ∀ e, e ∈ c.allDomains ∧ e.name = name ↔ e = d := by
  rw [domain?]
  cases hfind : c.allDomains.find? (·.name == name) with
  | none =>
    simp only [reduceCtorEq, false_iff]
    intro hd
    obtain ⟨hmem, hname⟩ := (hd d).2 rfl
    exact find?_name_eq_none_iff.1 hfind (List.mem_map.2 ⟨d, hmem, hname⟩)
  | some found =>
    have hmem := List.mem_of_find?_eq_some hfind
    have hname : found.name = name := by simpa using List.find?_some hfind
    simp only [Except.ok.injEq]
    constructor
    · rintro rfl e
      constructor
      · rintro ⟨he, hsame⟩
        exact List.inj_on_of_nodup_map hnames he hmem (hsame.trans hname.symm)
      · rintro rfl
        exact ⟨hmem, hname⟩
    · intro hd
      exact (hd found).1 ⟨hmem, hname⟩

theorem selectDomains_of_ne_nil {names : List String} (h : names ≠ []) :
    c.selectDomains names = names.mapM c.domain? := by
  rw [selectDomains, if_neg (by simpa using h)]

/-- **Names are refused** for the first of them that no domain has. -/
theorem selectDomains_eq_error_iff {names : List String} {f : Failure} :
    c.selectDomains names = .error f ↔
      ∃ before name after, names = before ++ name :: after ∧
        (∀ n ∈ before, n ∈ c.allDomains.map (·.name)) ∧ name ∉ c.allDomains.map (·.name) ∧
        f = c.unknownDomain name := by
  by_cases hne : names = []
  · subst hne
    simp [selectDomains]
  · rw [selectDomains_of_ne_nil hne, mapM_eq_error_iff]
    constructor
    · rintro ⟨before, name, after, ds, rfl, hbefore, hname⟩
      obtain ⟨hunknown, rfl⟩ := domain?_eq_error_iff.1 hname
      exact ⟨before, name, after, rfl,
        fun n hn => exists_domain?_eq_ok_iff.1 (exists_ok_of_forall₂ hbefore n hn), hunknown, rfl⟩
    · rintro ⟨before, name, after, rfl, hbefore, hname⟩
      have hknown := untilFailure_snd_eq_none_iff.2 fun n hn =>
        exists_domain?_eq_ok_iff.2 (hbefore n hn)
      exact ⟨before, name, after, _, rfl, untilFailure_eq_iff.1 (Prod.ext rfl hknown),
        domain?_eq_error_iff.2 hname⟩

theorem exists_selectDomains_eq_error_iff {names : List String} :
    (∃ f, c.selectDomains names = .error f) ↔
      ∃ name ∈ names, name ∉ c.allDomains.map (·.name) := by
  constructor
  · rintro ⟨f, hf⟩
    obtain ⟨before, name, after, rfl, -, hunknown, -⟩ := selectDomains_eq_error_iff.1 hf
    exact ⟨name, List.mem_append_right _ List.mem_cons_self, hunknown⟩
  · rintro ⟨name, hname, hunknown⟩
    cases hselect : c.selectDomains names with
    | error f => exact ⟨f, rfl⟩
    | ok ds =>
      rw [selectDomains_of_ne_nil (List.ne_nil_of_mem hname), mapM_eq_ok_iff] at hselect
      exact absurd (exists_domain?_eq_ok_iff.1 (exists_ok_of_forall₂ hselect name hname)) hunknown

/-- What the domains of a configuration are, and what names select of them. -/
structure Offers (c : Config) : Prop where
  nodup_names : (c.allDomains.map (·.name)).Nodup
  configured : ∀ d ∈ c.domains, d ∈ c.allDomains
  /-- A configured domain takes the place of the builtin one of its name. -/
  replaced : ∀ (i : Nat) (b d : Domain), Domain.builtin[i]? = some b → d ∈ c.domains →
    d.name = b.name → c.allDomains[i]? = some d
  /-- A builtin domain that no configured one replaces keeps its place. -/
  kept : ∀ (i : Nat) (b : Domain), Domain.builtin[i]? = some b → b.name ∉ c.domains.map (·.name) →
    c.allDomains[i]? = some b
  /-- Behind the places of the builtin ones come the other configured domains, in order. -/
  added : c.allDomains.drop Domain.builtin.length =
    c.domains.filter fun d => d.name ∉ Domain.builtin.map (·.name)
  selectDomains_nil : c.selectDomains [] = .ok c.allDomains
  /-- Names select, in order, the one domain that has the name. -/
  selectDomains_eq_ok_iff : ∀ names ds, names ≠ [] → (c.selectDomains names = .ok ds ↔
    List.Forall₂ (fun name d => ∀ e, e ∈ c.allDomains ∧ e.name = name ↔ e = d) names ds)
  exists_selectDomains_eq_error_iff : ∀ names, (∃ f, c.selectDomains names = .error f) ↔
    ∃ name ∈ names, name ∉ c.allDomains.map (·.name)
  /-- The error is about the first name that no domain has. -/
  selectDomains_eq_error_iff : ∀ names f, c.selectDomains names = .error f ↔
    ∃ before name after, names = before ++ name :: after ∧
      (∀ n ∈ before, n ∈ c.allDomains.map (·.name)) ∧ name ∉ c.allDomains.map (·.name) ∧
      f = .ofMessage ("Unknown domain '" ++ name ++ "' (known domains: " ++
        ", ".intercalate (c.allDomains.map (·.name)) ++ ")")

/-- **A configuration that passes its check** offers the builtin domains, with its own in their
places and behind them. -/
theorem offers_of_check (h : c.check = .ok ()) : c.Offers where
  nodup_names := nodup_names_allDomains h
  configured := fun _ => mem_allDomains_of_mem h
  replaced := by
    intro i b d hb hd hname
    rw [getElem?_allDomains h hb, inPlaceOf_eq_of_mem (check_eq_ok_iff.1 h).2 hd hname]
  kept := by
    intro i b hb hname
    rw [getElem?_allDomains h hb, inPlaceOf_eq_self hname]
  added := drop_allDomains h
  selectDomains_nil := rfl
  selectDomains_eq_ok_iff := by
    intro names ds hne
    have hdomain (name : String) (d : Domain) :
        c.domain? name = .ok d ↔ ∀ e, e ∈ c.allDomains ∧ e.name = name ↔ e = d :=
      domain?_eq_ok_iff (nodup_names_allDomains h)
    rw [selectDomains_of_ne_nil hne, mapM_eq_ok_iff]
    simp only [hdomain]
  exists_selectDomains_eq_error_iff := fun _ => exists_selectDomains_eq_error_iff
  selectDomains_eq_error_iff := fun _ _ => selectDomains_eq_error_iff

/-! A configuration that replaces one builtin domain and adds another domain. -/

def vaultConfig : Config where
  domains :=
    [ { name := "vault", qualifier := "com.acme.VaultSecret", methodTag := "Vault" },
      { name := "sys", qualifier := "com.acme.Property", methodTag := "Property" } ]

/-- The first name that is not known is reported, and a name may be given twice. -/
theorem offers_vaultConfig :
    vaultConfig.check = .ok () ∧ vaultConfig.Offers ∧
      vaultConfig.allDomains.map (·.methodTag) = ["Env", "Property", "Ssm", "Cli", "Vault"] ∧
      vaultConfig.selectDomains ["vault", "x", "env", "y"] = .error (.ofMessage
        "Unknown domain 'x' (known domains: env, sys, ssm, cli, vault)") := by
  have hcheck : vaultConfig.check = .ok () := by decide
  have hoffers := offers_of_check hcheck
  exact ⟨hcheck, hoffers, by decide, (hoffers.selectDomains_eq_error_iff _ _).2
    ⟨["vault"], "x", ["env", "y"], rfl, by decide, by decide, by decide⟩⟩

end Wiring.Config
