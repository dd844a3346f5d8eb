import CallGate.Decision

/-!
# What grants entitle to

Grants are made one after the other and add up. Main statements: `contains_ofList` says that a table of
grants holds what is in one of the grants, and nothing else, and `entitled_iff_granted` that a principal
may do what is required just if all of it was granted, in whatever order and portions.
-/

namespace CallGate

/-- A grant of operations on a resource. -/
abbrev Grant := String × List String

/-- One of the grants is on the resource, and the operation is among those that it grants. -/
def Granted (grants : List Grant) (resource operation : String) : Prop :=
  ∃ operations, (resource, operations) ∈ grants ∧ operation ∈ operations

/-- The second grants are the first ones in another order, made again or not again, or divided into
other portions. -/
inductive Regrouped : List Grant → List Grant → Prop where
  | reordered {grants grants' : List Grant} (h : grants.Perm grants') : Regrouped grants grants'
  | repeated {g : Grant} {grants : List Grant} (h : g ∈ grants) : Regrouped grants (g :: grants)
  | divided (resource : String) (operations more : List String) (grants : List Grant) :
      Regrouped ((resource, operations ++ more) :: grants)
        ((resource, operations) :: (resource, more) :: grants)
  | symm {grants grants' : List Grant} (h : Regrouped grants grants') : Regrouped grants' grants
  | trans {grants grants' grants'' : List Grant} (h : Regrouped grants grants')
      (h' : Regrouped grants' grants'') : Regrouped grants grants''

theorem granted_cons {g : Grant} {grants : List Grant} {resource operation : String} :
    Granted (g :: grants) resource operation ↔
      g.1 = resource ∧ operation ∈ g.2 ∨ Granted grants resource operation := by
  obtain ⟨owner, operations⟩ := g
  constructor
  · rintro ⟨operations', hmem, hop⟩
    rcases List.mem_cons.mp hmem with heq | hmem
    · obtain ⟨rfl, rfl⟩ := Prod.mk.inj heq
      exact Or.inl ⟨rfl, hop⟩
    · exact Or.inr ⟨operations', hmem, hop⟩
  · rintro (⟨rfl, hop⟩ | ⟨operations', hmem, hop⟩)
    · exact ⟨operations, List.mem_cons_self, hop⟩
    · exact ⟨operations', List.mem_cons_of_mem _ hmem, hop⟩

theorem Granted.mono {grants grants' : List Grant} (h : ∀ g ∈ grants, g ∈ grants')
    {resource operation : String} (hg : Granted grants resource operation) :
    Granted grants' resource operation := by
  obtain ⟨operations, hmem, hop⟩ := hg
  exact ⟨operations, h _ hmem, hop⟩

/-- However grants are regrouped, the same is granted. -/
theorem Regrouped.granted_iff {grants grants' : List Grant} (h : Regrouped grants grants')
    (resource operation : String) :
    Granted grants' resource operation ↔ Granted grants resource operation := by
  induction h with
  | reordered h => exact ⟨.mono fun g hg => h.mem_iff.mpr hg, .mono fun g hg => h.mem_iff.mp hg⟩
  | repeated h =>
    refine ⟨.mono fun g' hg' => ?_, .mono fun g' hg' => List.mem_cons_of_mem _ hg'⟩
    rcases List.mem_cons.mp hg' with rfl | hg'
    · exact h
    · exact hg'
  | divided owner operations more grants =>
    simp only [granted_cons, List.mem_append]
    constructor
    · rintro (⟨rfl, hop⟩ | ⟨rfl, hop⟩ | hrest)
      · exact Or.inl ⟨rfl, Or.inl hop⟩
      · exact Or.inl ⟨rfl, Or.inr hop⟩
      · exact Or.inr hrest
    · rintro (⟨rfl, hop | hop⟩ | hrest)
      · exact Or.inl ⟨rfl, hop⟩
      · exact Or.inr (Or.inl ⟨rfl, hop⟩)
      · exact Or.inr (Or.inr hrest)
  | symm _ ih => exact ih.symm
  | trans _ _ ih ih' => exact ih'.trans ih

/-! ## Tables of grants -/

namespace Grants

/-- The table holds the operation on the resource. -/
def Contains (g : Grants) (resource operation : String) : Prop :=
  ∃ granted, g.get? resource = some granted ∧ operation ∈ granted

theorem not_contains_empty (resource operation : String) :
    ¬ Contains Table.empty resource operation := by
  rintro ⟨granted, hget, -⟩
  cases hget

/-- A grant adds its operations to those that the table holds on its resource. -/
theorem contains_add {g : Grants} {owner : String} {operations : List String}
    {resource operation : String} :
    (g.add owner operations).Contains resource operation ↔
      owner = resource ∧ operation ∈ operations ∨ g.Contains resource operation := by
  unfold Contains add
  rw [Table.get?_insert]
  by_cases h : owner = resource
  · subst h
    have hold : operation ∈ (g.get? owner).getD .empty ↔
        ∃ granted, g.get? owner = some granted ∧ operation ∈ granted := by
      cases g.get? owner with
      | none => exact iff_of_false (by rintro ⟨⟩) (by simp)
      | some granted => simp
    simp [NameSet.mem_insertAll, hold]
  · simp [h]

theorem contains_foldl {g : Grants} {grants : List Grant} {resource operation : String} :
    (grants.foldl (fun g entry => g.add entry.1 entry.2) g).Contains resource operation ↔
      Granted grants resource operation ∨ g.Contains resource operation := by
  induction grants generalizing g with
  | nil => simp [Granted]
  | cons entry grants ih =>
    rw [List.foldl_cons, ih, contains_add, granted_cons]
    constructor
    · rintro (h | h | h)
      · exact Or.inl (Or.inr h)
      · exact Or.inl (Or.inl h)
      · exact Or.inr h
    · rintro ((h | h) | h)
      · exact Or.inr (Or.inl h)
      · exact Or.inl h
      · exact Or.inr (Or.inr h)

/-- A table of grants holds what is in one of them. -/
theorem contains_ofList {grants : List Grant} {resource operation : String} :
    (ofList grants).Contains resource operation ↔ Granted grants resource operation := by
  unfold ofList
  rw [contains_foldl]
  exact or_iff_left (not_contains_empty resource operation)

/-- A question that asks for something is answered by what the table holds. -/
theorem covers_of_iff {g : Grants} {resource : String} {operations : List String}
    (h : operations ≠ []) : g.covers (.of resource operations) = true ↔
      ∀ operation ∈ operations, g.Contains resource operation := by
  unfold covers Contains Requirement.of
  dsimp only
  cases g.get? resource with
  | none =>
    obtain ⟨operation, hmem⟩ := List.exists_mem_of_ne_nil operations h
    exact iff_of_false Bool.false_ne_true fun hall => by simpa using hall operation hmem
  | some granted =>
    have hmem (operation : String) :
        operation ∈ (NameSet.ofList operations).toList ↔ operation ∈ operations := NameSet.mem_ofList
    simp [NameSet.subset, hmem]

end Grants

theorem Requirement.isFree_of_iff {resource : String} {operations : List String} :
    (Requirement.of resource operations).isFree = true ↔ operations = [] := by
  unfold isFree NameSet.isEmpty Requirement.of
  rw [List.isEmpty_iff, List.eq_nil_iff_forall_not_mem, List.eq_nil_iff_forall_not_mem]
  exact forall_congr' fun operation => not_congr NameSet.mem_ofList

/-! ## Principals who hold grants -/

namespace World

/-- The principal may do what it was granted. -/
def Holds (w : World) (p : PrincipalId) (grants : List Grant) : Prop :=
  (w.principals p).judgement = (Grants.ofList grants).judgement

variable {w w' : World} {p p' : PrincipalId} {grants grants' : List Grant}

theorem Holds.answer (h : w.Holds p grants) (question : Requirement) :
    w.answer p question = (Grants.ofList grants).covers question := by
  unfold World.answer Principal.answer
  rw [show (w.principals p).judgement = _ from h]
  rfl

/-- Whoever holds grants is allowed to do what is required if all of it was granted. -/
theorem Holds.decision_eq_allowed_iff (h : w.Holds p grants) {resource : String}
    {operations : List String} : w.decision (some p) (.of resource operations) = .allowed ↔
      operations = [] ∨ ∀ operation ∈ operations, Granted grants resource operation := by
  unfold decision
  by_cases hnil : operations = []
  · rw [if_pos (Requirement.isFree_of_iff.mpr hnil)]
    exact iff_of_true rfl (Or.inl hnil)
  · have hcovers : (Grants.ofList grants).covers (.of resource operations) = true ↔
        ∀ operation ∈ operations, (Grants.ofList grants).Contains resource operation :=
      Grants.covers_of_iff hnil
    simp only [Grants.contains_ofList] at hcovers
    rw [if_neg (mt Requirement.isFree_of_iff.mp hnil), or_iff_right hnil, ← hcovers]
    simp only [h.answer]
    split <;> simp_all

/-- Whoever may not do what is required is denied, and never taken for nobody. -/
theorem decision_some (w : World) (p : PrincipalId) (r : Requirement) :
    w.decision (some p) r = .allowed ∨ w.decision (some p) r = .denied := by
  unfold decision
  split
  · exact Or.inl rfl
  · dsimp only
    split
    · exact Or.inl rfl
    · exact Or.inr rfl

theorem decision_eq_denied_iff {r : Requirement} :
    w.decision (some p) r = .denied ↔ w.decision (some p) r ≠ .allowed := by
  rcases w.decision_some p r with h | h <;> simp [h]

/-- The decision is the same if the same is granted of what is required. -/
theorem Holds.decision_congr (h : w.Holds p grants) (h' : w'.Holds p' grants') {resource : String}
    {operations operations' : List String}
    (hgrants : ∀ operation, Granted grants' resource operation ↔ Granted grants resource operation)
    (hoperations : ∀ operation, operation ∈ operations' ↔ operation ∈ operations) :
    w'.decision (some p') (.of resource operations') =
      w.decision (some p) (.of resource operations) := by
  have hnil : operations' = [] ↔ operations = [] := by
    simp only [List.eq_nil_iff_forall_not_mem, hoperations]
  have hallowed : w'.decision (some p') (.of resource operations') = .allowed ↔
      w.decision (some p) (.of resource operations) = .allowed := by
    simp only [h.decision_eq_allowed_iff, h'.decision_eq_allowed_iff, hnil, hoperations, hgrants]
  rcases w.decision_some p (.of resource operations) with hd | hd
  · rw [hd, hallowed, hd]
  · rw [hd, decision_eq_denied_iff, Ne, hallowed, hd]
    exact nofun

/-- What is decided about somebody who was granted operations on resources. What is required is allowed
if nothing is required, or if each required operation is in one of the grants on just that resource, and
is denied otherwise.

So it is the same for everybody to whom the same was granted in another order, again, or in other
portions, and for the same operations in another order or with repetitions. One more grant takes
nothing away, and nothing becomes allowed because more is required. -/
theorem entitled_iff_granted (h : w.Holds p grants) (resource : String) (operations : List String) :
    let decision := w.decision (some p) (.of resource operations)
    (decision = .allowed ↔
      operations = [] ∨ ∀ operation ∈ operations, Granted grants resource operation) ∧
    (decision = .allowed ∨ decision = .denied) ∧
    (∀ (w' : World) p' grants' operations', w'.Holds p' grants' → Regrouped grants grants' →
      (∀ operation, operation ∈ operations' ↔ operation ∈ operations) →
      w'.decision (some p') (.of resource operations') = decision) ∧
    (∀ (w' : World) p' before g after, grants = before ++ after → w'.Holds p' (before ++ g :: after) →
      decision = .allowed → w'.decision (some p') (.of resource operations) = .allowed) ∧
    (∀ before operation after, operations = before ++ after → decision = .denied →
      w.decision (some p) (.of resource (before ++ operation :: after)) = .denied) := by
  intro decision
  have hinserted {α : Type} (before : List α) (a : α) (after : List α) :
      ∀ b ∈ before ++ after, b ∈ before ++ a :: after := by
    intro b hb
    rcases List.mem_append.mp hb with hb | hb
    · exact List.mem_append_left _ hb
    · exact List.mem_append_right _ (List.mem_cons_of_mem a hb)
  refine ⟨h.decision_eq_allowed_iff, w.decision_some p _, ?_, ?_, ?_⟩
  · intro w' p' grants' operations' h' hregrouped hoperations
    exact h.decision_congr h' (hregrouped.granted_iff resource) hoperations
  · rintro w' p' before g after rfl h' hallowed
    rw [h'.decision_eq_allowed_iff]
    refine (h.decision_eq_allowed_iff.mp hallowed).imp_right fun hall operation hmem => ?_
    exact (hall operation hmem).mono (hinserted before g after)
  · rintro before operation after rfl hdenied
    rw [decision_eq_denied_iff, Ne, h.decision_eq_allowed_iff] at hdenied ⊢
    rintro (hnil | hall)
    · simp at hnil
    · exact hdenied (Or.inr fun o ho => hall o (hinserted before operation after o ho))

/-- Two grants on a resource are made at once, and again to somebody else in two portions, in another order
and with one of them repeated; the first of the two is refused what was granted on another resource. -/
theorem entitled_iff_granted_regrouped :
    let grants : List Grant := [("order", ["read", "write"]), ("invoice", ["send"])]
    let regrouped : List Grant :=
      [("order", ["write"]), ("order", ["read"]), ("order", ["write"]), ("invoice", ["send"])]
    let w : World := .initial (fun p => .fresh (Grants.ofList
      (if p = "ann" then grants else regrouped)).judgement) fun _ => .ofNat 0
    w.Holds "ann" grants ∧ w.Holds "bob" regrouped ∧ Regrouped grants regrouped ∧
      w.decision (some "ann") (.of "order" ["write", "read"]) = .allowed ∧
      w.decision (some "bob") (.of "order" ["read", "write", "read"]) = .allowed ∧
      w.decision (some "ann") (.of "order" ["send", "read"]) = .denied ∧
      w.decision (some "ann") (.of "order" []) = .allowed := by
  intro grants regrouped w
  have hann : w.Holds "ann" grants := rfl
  have hbob : w.Holds "bob" regrouped := rfl
  have hregrouped : Regrouped grants regrouped := by
    have hdivided := Regrouped.divided "order" ["read"] ["write"] [("invoice", ["send"])]
    have hrepeated : Regrouped [("order", ["read"]), ("order", ["write"]), ("invoice", ["send"])]
        (("order", ["write"]) :: [("order", ["read"]), ("order", ["write"]), ("invoice", ["send"])]) :=
      .repeated (by simp)
    exact hdivided.trans hrepeated
  obtain ⟨hallowed, -, hsame, -, -⟩ :=
    entitled_iff_granted hann "order" ["write", "read"]
  have hread : w.decision (some "ann") (.of "order" ["write", "read"]) = .allowed := by
    refine hallowed.mpr (Or.inr fun operation hmem => ⟨["read", "write"], by simp [grants], ?_⟩)
    simp only [List.mem_cons, List.not_mem_nil, or_false] at hmem ⊢
    exact hmem.symm
  have hbobs : w.decision (some "bob") (.of "order" ["read", "write", "read"]) =
      w.decision (some "ann") (.of "order" ["write", "read"]) :=
    hsame w "bob" regrouped _ hbob hregrouped (by grind)
  obtain ⟨-, -, -, -, hmore⟩ := entitled_iff_granted hann "order" ["send"]
  refine ⟨hann, hbob, hregrouped, hread, hbobs.trans hread, ?_, ?_⟩
  · exact hmore ["send"] "read" [] rfl (by decide +kernel)
  · exact (entitled_iff_granted hann "order" []).1.mpr (Or.inl rfl)

end World

end CallGate
