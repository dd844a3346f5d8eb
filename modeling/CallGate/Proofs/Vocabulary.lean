import CallGate.Proofs.Delivery
import CallGate.Proofs.Secrecy

/-!
# What callers are told

A call that fails on its own account fails with one of five codes and messages, and nothing of what
went wrong inside gets out with it but the messages of a complaint. Main statements: `told_of_accounts`
says what a status tells about how the handler has ended, and `wire_vocabulary` that callers are told
no more than this, and that handlers which differ in nothing but their faults cannot be told apart.
-/

namespace CallGate

variable {α σ : Type}

/-- The codes and messages with which calls fail on their own account. -/
def failureVocabulary : List (StatusCode × String) :=
  [(.unauthenticated, "No user context."),
    (.permissionDenied, "You don't have the expected rights."),
    (.internal, "A business rule was violated."),
    (.internal, "An error occurs."),
    (.cancelled, "Call cancelled.")]

/-- What a status may tell about how a handler has ended, if it has. -/
structure Told (ending : Option (Ending α)) (status : Status) : Prop where
  handedOn : ∀ s, ending = some (.failed (.handedOn s)) → status = s
  vocabulary : (∀ s, ending ≠ some (.failed (.handedOn s))) →
    (status.code, status.message) ∈ failureVocabulary
  metadata : (∀ s, ending ≠ some (.failed (.handedOn s))) → status.metadata = .empty
  details : (∀ s, ending ≠ some (.failed (.handedOn s))) →
    (∀ c, ending ≠ some (.failed (.complaint c))) → status.details = []

/-- A status in the vocabulary without details may be told about any ending that hands on no
status. -/
theorem told_of_mem {ending : Option (Ending α)} {status : Status}
    (hh : ∀ s, ending ≠ some (.failed (.handedOn s)))
    (hv : (status.code, status.message) ∈ failureVocabulary) (hm : status.metadata = .empty)
    (hd : (∀ c, ending ≠ some (.failed (.complaint c))) → status.details = []) :
    Told ending status :=
  ⟨fun s hs => absurd hs (hh s), fun _ => hv, fun _ => hm, fun _ => hd⟩

theorem told_refusal (call : Call) : Told (none : Option (Ending α)) call.refusal := by
  unfold Call.refusal
  cases call.principal with
  | none => exact told_of_mem (fun _ h => nomatch h) (by decide) rfl fun _ => rfl
  | some p =>
    have hv : (StatusCode.permissionDenied, "You don't have the expected rights.") ∈
        failureVocabulary := by
      decide
    exact told_of_mem (fun _ h => nomatch h) hv rfl fun _ => rfl

theorem told_result {shape : Shape} {ending : Option (Ending α)} {status : Status}
    (h : shape.result ending = .error status) : Told ending status := by
  have unexpected : (StatusCode.internal, "An error occurs.") ∈ failureVocabulary := by decide
  have cancelled (hh : ∀ s, ending ≠ some (.failed (.handedOn s)))
      (h : (shape.cancelled : CallResult α) = .error status) : Told ending status := by
    cases shape <;> cases h
    exact told_of_mem hh (by decide) rfl fun _ => rfl
  cases ending with
  | none => exact cancelled (fun _ h => nomatch h) h
  | some ending =>
    cases ending with
    | returned value => cases shape <;> cases h
    | panicked payload =>
      cases h
      exact told_of_mem (fun _ h => nomatch h) unexpected rfl fun _ => rfl
    | failed error =>
      cases error with
      | cancelled => exact cancelled (fun _ h => nomatch h) h
      | handedOn s =>
        cases h
        exact ⟨fun s' hs => by cases hs; rfl, fun hh => absurd rfl (hh s), fun hh => absurd rfl (hh s),
          fun hh => absurd rfl (hh s)⟩
      | unexpected chain =>
        cases h
        exact told_of_mem (fun _ h => nomatch h) unexpected rfl fun _ => rfl
      | complaint c =>
        have hv : (StatusCode.internal, "A business rule was violated.") ∈ failureVocabulary := by
          decide
        cases h
        exact told_of_mem (fun _ h => nomatch h) hv rfl fun hc => absurd rfl (hc c)

theorem result_of_isFault {shape : Shape} {ending : Ending α} (h : ending.isFault = true) :
    shape.result (some ending) = .error { code := .internal, message := "An error occurs." } := by
  cases ending with
  | returned value => cases h
  | panicked payload => rfl
  | failed error =>
    cases error with
    | unexpected chain => rfl
    | handedOn | complaint | cancelled => cases h

namespace Job

variable {j : Job α σ}

/-- A status with which a call has failed tells about its handler what it may tell. -/
theorem told_of_accounts {call : Passage α σ} {h : History α} (hA : j.Accounts call h)
    {status : Status} (hr : h.result? = some (.error status)) : Told h.ending? status := by
  cases call with
  | arrived =>
    rw [show h = [] from hA] at hr
    cases hr
  | running span state =>
    rw [hA.2.2] at hr
    cases hr
  | settled last result =>
    obtain ⟨hres, ⟨rfl, -⟩ | ⟨-, hout⟩⟩ := hA
    · cases hr
      exact told_refusal j.call
    · rw [hr] at hres
      cases hres
      exact told_result hout.symm

/-- A call whose handler has ended has the result that its ending gives it. -/
theorem result?_of_ending {call : Passage α σ} {h : History α} (hA : j.Accounts call h)
    {ending : Ending α} (he : h.ending? = some ending) :
    h.result? = some (j.shape.result (some ending)) := by
  cases call with
  | arrived =>
    rw [show h = [] from hA] at he
    cases he
  | running span state =>
    rw [hA.2.1] at he
    cases he
  | settled last result =>
    obtain ⟨hres, ⟨rfl, -⟩ | ⟨-, hout⟩⟩ := hA
    · cases he
    · rw [hres, hout, he]

theorem deliveries_of_ending {call : Passage α σ} {h : History α} (hA : j.Accounts call h)
    {ending : Ending α} (he : h.ending? = some ending) {status : Status}
    (hs : j.shape.result (some ending) = .error status) :
    h.deliveries = h.taken.map .element ++ [.failure status] := by
  rw [History.deliveries, History.failure?, result?_of_ending hA he, hs]
  rfl

theorem result?_of_mem_deliveries {h : History α} {status : Status}
    (hm : .failure status ∈ h.deliveries) : h.result? = some (.error status) := by
  rcases List.mem_append.mp hm with hm | hm
  · obtain ⟨value, -, hv⟩ := List.mem_map.mp hm
    cases hv
  · rw [History.failure?] at hm
    rcases hr : h.result? with _ | status' | reply
    · rw [hr] at hm
      cases hm
    · rw [hr] at hm
      obtain rfl : status = status' := by simpa using hm
      rfl
    · rw [hr] at hm
      cases hm

/-- A call that fails on its own account is told about with one of five codes and messages and without
metadata, and with details only if its handler has complained; a status that the handler hands on is
passed as it is, and whatever error or panic a handler comes to is told about in one and the same
way. If another handler differs in nothing but such ends, its calls cannot be told apart from those of
the first by anything but the log. -/
theorem wire_vocabulary (j : Job α σ) (w : World) (moves : List Move) :
    let unexpected : Status := { code := .internal, message := "An error occurs." }
    (∀ outbox,
      let start : Exchange α (Passage α σ) := .ofCall w outbox
      let x := start.run j.directTurn moves
      let h := j.directHistory start moves
      (∀ status, x.call.result? = some (.error status) → Told h.ending? status) ∧
        (∀ status, h.ending? = some (.failed (.handedOn status)) →
          x.call.result? = some (.error status)) ∧
        ∀ ending, h.ending? = some ending → ending.isFault = true →
          x.call.result? = some (.error unexpected)) ∧
    (∀ capacity,
      let start : Exchange α (Serving α σ) := .ofService w capacity
      let x := start.run j.serve moves
      let h := j.servedHistory start moves
      (∀ status, .failure status ∈ x.received → Told h.ending? status) ∧
        (.close ∉ moves → .drop ∉ moves → x.next = .ended →
          (∀ status, h.ending? = some (.failed (.handedOn status)) →
            x.received = h.taken.map .element ++ [.failure status]) ∧
          ∀ ending, h.ending? = some ending → ending.isFault = true →
            x.received = h.taken.map .element ++ [.failure unexpected])) ∧
    ∀ (σ' : Type) (R : σ → σ' → Prop) (h' : Handler α σ'), j.handler.Alike R h' →
      (∀ outbox,
        let x := (Exchange.ofCall w outbox).run j.directTurn moves
        let y := (Exchange.ofCall w outbox).run (j.withHandler h').directTurn moves
        x.received = y.received ∧ x.next = y.next ∧ x.call.result? = y.call.result? ∧
          x.scene.unlogged = y.scene.unlogged) ∧
      ∀ capacity,
        let x := (Exchange.ofService w capacity).run j.serve moves
        let y := (Exchange.ofService w capacity).run (j.withHandler h').serve moves
        x.received = y.received ∧ x.next = y.next ∧ x.scene.unlogged = y.scene.unlogged := by
  intro unexpected
  refine ⟨?_, ?_, ?_⟩
  · intro outbox start x h
    have hA : j.Accounts x.call h := j.accounts_direct w outbox moves
    rw [hA.result?]
    refine ⟨fun status => told_of_accounts hA, fun status he => result?_of_ending hA he, ?_⟩
    intro ending he hf
    rw [result?_of_ending hA he, result_of_isFault hf]
  · intro capacity start x h
    have hS : j.Served x.received x.call x.scene h := j.served_run w capacity moves
    obtain ⟨call, hA, hprefix⟩ := hS.carried_prefix
    constructor
    · intro status hm
      have hm' : .failure status ∈ h.deliveries := hprefix.subset (List.mem_append_left _ hm)
      exact told_of_accounts hA (result?_of_mem_deliveries hm')
    · intro hclose hdrop hn
      have hg : x.scene.streamGone = false := j.served_streamGone w capacity hclose hdrop
      rw [(received_of_ended hS hg hn).2]
      exact ⟨fun status he => deliveries_of_ending hA he rfl,
        fun ending he hf => deliveries_of_ending hA he (result_of_isFault hf)⟩
  · intro σ' R h' hh
    constructor
    · intro outbox x y
      have hxy := j.direct_alike hh w outbox moves
      exact ⟨hxy.2, Exchange.next_eq hxy, hxy.1.call.result?, hxy.1.unlogged⟩
    · intro capacity x y
      have hxy := j.served_alike hh w capacity moves
      exact ⟨hxy.2, Exchange.next_eq hxy, hxy.1.unlogged⟩

/-! ## An example -/

/-- Handlers that send the same are alike if their ends are. -/
theorem sending_alike (elements : List α) {ending ending' : Ending α} (he : ending.Alike ending') :
    (Handler.sending elements ending).Alike Eq (.sending elements ending') := by
  have turn (rest : List α) : (Turn.sending ending rest).Alike Eq (.sending ending' rest) := by
    induction rest with
    | nil => exact fun s => ⟨rfl, he⟩
    | cons value rest ih =>
      intro s
      simp only [Turn.sending, Turn.run]
      cases s.verdict with
      | sent => exact ih _
      | full => exact ⟨rfl, rfl⟩
      | refused => exact ⟨rfl, Or.inl rfl⟩
  exact ⟨fun _ => turn elements, fun h => h ▸ turn _⟩

/-- An error and a panic after the same element. -/
theorem wire_vocabulary_faults :
    let j := Job.plain [] .free none .duplex (.sending [1] (.failed (.unexpected ⟨["disk full"]⟩)))
    let moves : List Move := [.turn .streamFirst, .take, .take]
    let start : Exchange Nat (Serving Nat (List Nat)) :=
      .ofService World.blank ⟨2, by decide, by decide⟩
    let x := start.run j.serve moves
    let y := start.run (j.withHandler (.sending [1] (.panicked (.text "index")))).serve moves
    x.received = [.element 1, .failure { code := .internal, message := "An error occurs." }] ∧
      y.received = x.received := by
  intro j moves start x y
  obtain ⟨-, hserved, hpair⟩ := j.wire_vocabulary World.blank moves
  obtain ⟨-, hend⟩ := hserved ⟨2, by decide, by decide⟩
  obtain ⟨-, hfault⟩ := hend (by decide) (by decide) (by decide +kernel)
  constructor
  · exact (hfault (.failed (.unexpected ⟨["disk full"]⟩)) rfl rfl).trans (by decide +kernel)
  · have hh : j.handler.Alike Eq (.sending [1] (.panicked (.text "index"))) :=
      sending_alike [1] (Or.inr ⟨rfl, rfl⟩)
    exact ((hpair _ _ _ hh).2 ⟨2, by decide, by decide⟩).1.symm

end Job

end CallGate
