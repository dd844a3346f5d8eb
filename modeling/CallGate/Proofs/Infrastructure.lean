import CallGate.Proofs.Mediation
import CallGate.Proofs.Variables

/-!
# Calls that are taken for infrastructure

The paths of infrastructure calls can come from a variable whose value is cut at every comma. A comma
with nothing beside it leaves an empty path behind, and every method begins with that. Main
statements: `empty_mem_paths_iff` says what the variables must be like for the empty path to be
among the paths, and `business_call_screened_iff` that just then a call which is on no other path is
let in unscreened.
-/

namespace CallGate

variable {α σ : Type}

/-- There is a comma in the text with nothing between it and an end or another comma. -/
def HasStrayComma (text : String) : Prop :=
  text.toList.head? = some ',' ∨ text.toList.getLast? = some ',' ∨ [',', ','] <:+: text.toList

/-- A list in a variable has an empty item just if there is a stray comma in it. -/
theorem empty_mem_readList_iff (text : String) : "" ∈ readList text ↔ HasStrayComma text := by
  have hempty : text.isEmpty = true ↔ text.toList = [] := by
    rw [String.isEmpty_iff, String.toList_eq_nil_iff]
  unfold readList HasStrayComma
  by_cases h : text.isEmpty = true
  · rw [if_pos h, hempty.mp h]
    simp
  · have hne : text.toList ≠ [] := fun h' => h (hempty.mpr h')
    have hmem : "" ∈ (parts (· == ',') text.toList).map String.ofList ↔
        [] ∈ parts (· == ',') text.toList := by
      rw [List.mem_map]
      constructor
      · rintro ⟨cs, hcs, hcs'⟩
        obtain rfl : cs = [] := by simpa using hcs'
        exact hcs
      · intro hcs
        exact ⟨[], hcs, rfl⟩
    rw [if_neg h, hmem, nil_mem_parts_iff]
    simp [hne]

namespace Settings

/-- The empty path is among the paths of settings from variables just if a variable that gives the
paths has a stray comma in its value. -/
theorem empty_mem_paths_iff {environment : List (String × String)} {settings : Settings}
    (h : ofVariables environment = .ok settings) :
    "" ∈ settings.infrastructurePaths ↔
      ∃ entry ∈ environment, Setting.ofVariable? entry.1 = some .infrastructurePaths ∧
        HasStrayComma entry.2 := by
  obtain ⟨given, hgiven, rfl, -⟩ := ofVariables_eq_ok_iff.mp h
  have hmem : "" ∈ given.settings.infrastructurePaths ↔
      ∃ list ∈ given.infrastructurePaths.toList, "" ∈ list := by
    unfold Given.settings
    cases given.infrastructurePaths with
    | none => simp [standard, reflectionPath]
    | some paths => simp
  rw [hmem, ← hgiven.infrastructurePaths.map_eq]
  simp only [List.mem_map, Setting.mem_texts_iff, ← empty_mem_readList_iff]
  constructor
  · rintro ⟨_, ⟨_, ⟨entry, hentry, hsetting, rfl⟩, rfl⟩, hempty⟩
    exact ⟨entry, hentry, hsetting, hempty⟩
  · rintro ⟨entry, hentry, hsetting, hempty⟩
    exact ⟨_, ⟨_, ⟨entry, hentry, hsetting, rfl⟩, rfl⟩, hempty⟩

/-- A method that is on no other path is taken for infrastructure just if the empty path is listed. -/
theorem isInfrastructure_iff {settings : Settings} {method : String}
    (h : ∀ path ∈ settings.infrastructurePaths, path ≠ "" →
      beginsIgnoringCase (utf8Bytes path) (utf8Bytes method) = false) :
    settings.isInfrastructure method = true ↔ "" ∈ settings.infrastructurePaths := by
  unfold isInfrastructure
  rw [List.any_eq_true]
  constructor
  · rintro ⟨path, hpath, hbegins⟩
    by_cases hempty : path = ""
    · exact hempty ▸ hpath
    · rw [h path hpath hempty] at hbegins
      cases hbegins
  · intro hempty
    exact ⟨"", hempty, rfl⟩

end Settings

namespace Job

/-- A call with two streams whose method is on none of the paths that variables give, but for the
empty one, is screened just if no value of a variable that gives the paths has a stray comma. If it
is screened, requires something and has no principal, its handler is never invoked and it fails with
that reason; if it is not, its handler is always invoked. -/
theorem business_call_screened_iff {environment : List (String × String)} {settings : Settings}
    (hok : Settings.ofVariables environment = .ok settings) (j : Job α σ)
    (hsettings : j.gate.settings = settings) (hshape : j.shape = .duplex)
    (hmethod : ∀ path ∈ settings.infrastructurePaths, path ≠ "" →
      beginsIgnoringCase (utf8Bytes path) (utf8Bytes j.call.method) = false) :
    let noPrincipal : Status := { code := .unauthenticated, message := "No user context." }
    let stray := ∃ entry ∈ environment,
      Setting.ofVariable? entry.1 = some .infrastructurePaths ∧ HasStrayComma entry.2
    (settings.isInfrastructure j.call.method = true ↔ stray) ∧
      (¬ stray → ∀ w moves, (j.required w).isFree = false → j.call.principal = none →
        (∀ outbox,
          let x := (Exchange.ofCall w outbox).run j.directTurn moves
          x.scene.world.invocations = w.invocations ∧
            ((∃ order, .turn order ∈ moves) → x.call.result? = some (.error noPrincipal))) ∧
        ∀ capacity,
          let x := (Exchange.ofService w capacity).run j.serve moves
          x.scene.world.invocations = w.invocations ∧
            ((∃ order, .turn order ∈ moves) →
              x.received ++ x.scene.held <+: [.failure noPrincipal])) ∧
      (stray → ∀ w moves, (∃ order, .turn order ∈ moves) →
        (∀ outbox, ∃ ctx,
          ((Exchange.ofCall w outbox).run j.directTurn moves).scene.world.invocations =
            w.invocations ++ [ctx]) ∧
        ∀ capacity, ∃ ctx,
          ((Exchange.ofService w capacity).run j.serve moves).scene.world.invocations =
            w.invocations ++ [ctx]) := by
  intro noPrincipal stray
  have hstray : settings.isInfrastructure j.call.method = true ↔ stray :=
    (Settings.isInfrastructure_iff hmethod).trans (Settings.empty_mem_paths_iff hok)
  refine ⟨hstray, ?_, ?_⟩
  · intro hclean w moves hfree hp
    have hg : ¬ j.Granted w := by
      rintro (⟨-, hi⟩ | hf | ⟨p, hp', -⟩)
      · rw [hsettings, hstray] at hi
        exact hclean hi
      · rw [hfree] at hf
        cases hf
      · rw [hp] at hp'
        cases hp'
    have hrefusal : j.call.refusal = noPrincipal := by
      unfold Call.refusal
      rw [hp]
      rfl
    constructor
    · intro outbox x
      refine ⟨invocations_of_not_granted (j.screened_direct w outbox moves) hg, fun turned => ?_⟩
      rw [← hrefusal]
      exact (j.refused_direct hg outbox turned).1
    · intro capacity x
      obtain ⟨call, -, hS⟩ := j.screened_served w capacity moves
      refine ⟨invocations_of_not_granted hS hg, fun turned => ?_⟩
      rw [← hrefusal]
      exact (j.refused_served hg capacity turned).1
  · intro hs w moves turned
    have hg : j.Granted w := Or.inl ⟨hshape, hsettings ▸ hstray.mpr hs⟩
    exact ⟨fun outbox => (j.mediated_direct w outbox turned).invoked hg,
      fun capacity => (j.mediated_served w capacity turned).invoked hg⟩

/-- A protected call without a principal on a gate with the given paths of infrastructure calls. -/
def business (paths : List String) : Job Nat (List Nat) :=
  .plain paths (.of "order" ["read"]) none .duplex (.sending [1] (.returned 2))

/-- Without a stray comma the call is refused. -/
theorem business_call_screened :
    let x := (Exchange.ofCall World.blank none).run (business ["/grpc.reflection"]).directTurn
      [.turn .handlerFirst]
    x.scene.world.invocations = [] ∧
      x.call.result? =
        some (.error { code := .unauthenticated, message := "No user context." }) := by
  intro x
  have hok : Settings.ofVariables [("AUTHZ_BYPASS_PREFIXES", "/grpc.reflection")] =
      .ok (business ["/grpc.reflection"]).gate.settings := by
    rfl
  obtain ⟨-, h, -⟩ := business_call_screened_iff hok (business ["/grpc.reflection"]) rfl rfl
    (by decide +kernel)
  have hclean := mt (Settings.empty_mem_paths_iff hok).mpr (by decide +kernel)
  obtain ⟨hdirect, -⟩ := h hclean World.blank [.turn .handlerFirst] (by decide +kernel) rfl
  obtain ⟨hinv, hresult⟩ := hdirect none
  exact ⟨hinv, hresult ⟨.handlerFirst, by decide⟩⟩

/-- With a stray comma the same call is let in. -/
theorem business_call_let_in :
    let j := business ["/grpc.reflection", ""]
    let x := (Exchange.ofCall World.blank none).run j.directTurn [.turn .handlerFirst]
    Settings.ofVariables [("AUTHZ_BYPASS_PREFIXES", "/grpc.reflection,")] =
        .ok j.gate.settings ∧
      (∀ path ∈ j.gate.settings.infrastructurePaths, path ≠ "" →
        beginsIgnoringCase (utf8Bytes path) (utf8Bytes j.call.method) = false) ∧
      (j.required World.blank).isFree = false ∧ j.call.principal = none ∧
      x.scene.world.invocations.length = 1 ∧ x.call.result? = some (.ok .completed) :=
  ⟨rfl, by decide +kernel, by decide +kernel, rfl, by decide +kernel, rfl⟩

end Job

end CallGate
