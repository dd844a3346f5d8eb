import CallGate.Proofs.StringList
import CallGate.Proofs.Vocabulary

/-!
# Complaints reach callers whole

The messages of a complaint travel in the details of a status, and a status may be handed on by the
handlers of any number of further calls. Main statements: `ofStatus?_of_carries` says that the
messages can be read from every status on the way, and `complaint_read_back` that the caller gets
such a status, and that no failure of another kind looks like a complaint.
-/

namespace CallGate

variable {α σ : Type}

namespace Complaint

theorem ofUtf8?_detail (c : Complaint) : ofUtf8? c.detail = some (StringList.encode c.messages) :=
  ofUtf8?_utf8Bytes _

/-- Even a complaint without messages has details: the brackets of the empty array. -/
theorem detail_ne_nil (c : Complaint) : c.detail ≠ [] := by
  intro h
  have hempty : StringList.encode c.messages = "" := by
    have hread := ofUtf8?_detail c
    rw [h, show ([] : Bytes) = utf8Bytes "" from rfl, ofUtf8?_utf8Bytes] at hread
    exact (Option.some.inj hread).symm
  have hlist := congrArg String.toList hempty
  rw [StringList.encode, String.toList_ofList] at hlist
  cases hlist

/-- A complaint is read from any internal status with its details. -/
theorem ofStatus?_of_details {status : Status} {c : Complaint} (hcode : status.code = .internal)
    (hdetails : status.details = c.detail) : ofStatus? status = some c := by
  have hne : status.details.isEmpty = false := by
    rw [hdetails]
    exact List.isEmpty_eq_false_iff.mpr c.detail_ne_nil
  unfold ofStatus?
  rw [if_pos (by simp [hcode, hne]), hdetails, ofUtf8?_detail]
  simp only [Option.bind_eq_bind, Option.bind_some, StringList.decode?_encode]
  rfl

theorem ofStatus?_eq_none {status : Status} (h : status.details = []) : ofStatus? status = none := by
  unfold ofStatus?
  rw [h]
  simp

end Complaint

/-! ## Failures on their way -/

/-- Somebody is told the status because of the failure: it is presented as the status, or a call has
come to it whose handler has failed in this way. -/
inductive Failure.ToldAs (e : Failure) : Status → Prop where
  | presented : e.ToldAs e.presentation.toStatus
  | direct {α σ : Type} (j : Job α σ) (w : World) (outbox : Option (Channel (Delivery α)))
      (moves : List Move) {status : Status}
      (ended : (j.directHistory (.ofCall w outbox) moves).ending? = some (.failed e))
      (told : ((Exchange.ofCall w outbox).run j.directTurn moves).call.result? =
        some (.error status)) : e.ToldAs status
  | served {α σ : Type} (j : Job α σ) (w : World) (capacity : Capacity) (moves : List Move)
      {status : Status}
      (ended : (j.servedHistory (.ofService w capacity) moves).ending? = some (.failed e))
      (told : .failure status ∈ ((Exchange.ofService w capacity).run j.serve moves).received) :
      e.ToldAs status

/-- The failure carries the complaint: it is the complaint, or it hands on a status that somebody was
told because of a failure that carries the complaint. -/
inductive Failure.Carries (c : Complaint) : Failure → Prop where
  | complained : Carries c (.complaint c)
  | handedOn {e : Failure} {status : Status} (he : Carries c e) (told : e.ToldAs status) :
      Carries c (.handedOn status)

theorem Failure.Carries.ne_cancelled {c : Complaint} {e : Failure} (h : e.Carries c) :
    e ≠ .cancelled := by
  cases h <;> exact fun h => nomatch h

theorem result_failed (shape : Shape) {e : Failure} (h : e ≠ .cancelled) :
    (shape.result (some (.failed e)) : CallResult α) = .error e.presentation.toStatus := by
  cases e with
  | cancelled => exact absurd rfl h
  | handedOn | complaint | unexpected => rfl

/-- A call that was cancelled is told about, if at all, as the failure is presented. -/
theorem status_of_result_failed {shape : Shape} {e : Failure} {status : Status}
    (h : (shape.result (some (.failed e)) : CallResult α) = .error status) :
    status = e.presentation.toStatus := by
  by_cases he : e = .cancelled
  · subst he
    cases shape <;> cases h
    rfl
  · rw [result_failed shape he] at h
    cases h
    rfl

theorem Failure.ToldAs.status_eq {e : Failure} {status : Status} (h : e.ToldAs status) :
    status = e.presentation.toStatus := by
  cases h with
  | presented => rfl
  | direct j w outbox moves ended told =>
    have hA := j.accounts_direct w outbox moves
    rw [hA.result?, Job.result?_of_ending hA ended] at told
    exact status_of_result_failed (Option.some.inj told)
  | served j w capacity moves ended told =>
    obtain ⟨call, hA, hcarried⟩ := Job.Served.carried_prefix (j.served_run w capacity moves)
    have hresult := Job.result?_of_mem_deliveries (hcarried.subset (List.mem_append_left _ told))
    rw [Job.result?_of_ending hA ended] at hresult
    exact status_of_result_failed (Option.some.inj hresult)

/-- The complaint can be read from the status as which a failure is presented that carries it. -/
theorem ofStatus?_of_carries {c : Complaint} {e : Failure} (h : e.Carries c) :
    Complaint.ofStatus? e.presentation.toStatus = some c := by
  induction h with
  | complained => exact Complaint.ofStatus?_of_details rfl rfl
  | handedOn he told ih =>
    rw [← told.status_eq] at ih
    exact ih

theorem ofStatus?_of_told {ending : Option (Ending α)} {status : Status} (h : Told ending status)
    (hc : ∀ c, ending ≠ some (.failed (.complaint c)))
    (hh : ∀ s, ending ≠ some (.failed (.handedOn s))) : Complaint.ofStatus? status = none :=
  Complaint.ofStatus?_eq_none (h.details hh hc)

/-! ## What can be read from what callers are told -/

/-- A complaint, of any number of any texts, has details from which its messages can be read, and the
caller of a call whose handler complains, or hands on a status that carries the complaint over any
number of calls, is told a status from which they can be read. No complaint can be read from a status
that tells of anything else: a refusal, an error, a panic or a cancellation. -/
theorem complaint_read_back :
    (∀ c : Complaint,
      (∃ text, ofUtf8? c.detail = some text ∧ StringList.decode? text = some c.messages) ∧
      ∀ e : Failure, e.Carries c →
        Complaint.ofStatus? e.presentation.toStatus = some c ∧
        ∀ {α σ : Type} (j : Job α σ) (w : World) (moves : List Move),
          (∀ outbox,
            (j.directHistory (.ofCall w outbox) moves).ending? = some (.failed e) →
            ∃ status, ((Exchange.ofCall w outbox).run j.directTurn moves).call.result? =
                some (.error status) ∧ Complaint.ofStatus? status = some c) ∧
          ∀ capacity,
            let x := (Exchange.ofService w capacity).run j.serve moves
            let h := j.servedHistory (.ofService w capacity) moves
            h.ending? = some (.failed e) →
            (∀ status, .failure status ∈ x.received → Complaint.ofStatus? status = some c) ∧
            (.close ∉ moves → .drop ∉ moves → x.next = .ended →
              ∃ status, x.received = h.taken.map .element ++ [.failure status] ∧
                Complaint.ofStatus? status = some c)) ∧
    (∀ e : Failure, (∀ c, e ≠ .complaint c) → (∀ s, e ≠ .handedOn s) →
      Complaint.ofStatus? e.presentation.toStatus = none) ∧
    (∀ (decision : Decision) (status : Status), decision.refusal? = some status →
      Complaint.ofStatus? status = none) ∧
    ∀ {α σ : Type} (j : Job α σ) (w : World) (moves : List Move),
      (∀ outbox,
        let ending := (j.directHistory (.ofCall w outbox) moves).ending?
        (∀ c, ending ≠ some (.failed (.complaint c))) →
        (∀ s, ending ≠ some (.failed (.handedOn s))) →
        ∀ status, ((Exchange.ofCall w outbox).run j.directTurn moves).call.result? =
            some (.error status) → Complaint.ofStatus? status = none) ∧
      ∀ capacity,
        let ending := (j.servedHistory (.ofService w capacity) moves).ending?
        (∀ c, ending ≠ some (.failed (.complaint c))) →
        (∀ s, ending ≠ some (.failed (.handedOn s))) →
        ∀ status, .failure status ∈ ((Exchange.ofService w capacity).run j.serve moves).received →
          Complaint.ofStatus? status = none := by
  refine ⟨fun c => ⟨⟨_, c.ofUtf8?_detail, StringList.decode?_encode _⟩, fun e he => ?_⟩, ?_, ?_, ?_⟩
  · have hread := ofStatus?_of_carries he
    refine ⟨hread, ?_⟩
    intro α σ j w moves
    constructor
    · intro outbox ended
      have hA := j.accounts_direct w outbox moves
      refine ⟨_, ?_, hread⟩
      rw [hA.result?, Job.result?_of_ending hA ended, result_failed j.shape he.ne_cancelled]
    · intro capacity x h ended
      have hS : j.Served x.received x.call x.scene h := j.served_run w capacity moves
      obtain ⟨call, hA, -⟩ := hS.carried_prefix
      constructor
      · intro status told
        rw [(Failure.ToldAs.served j w capacity moves ended told).status_eq]
        exact hread
      · intro hclose hdrop hn
        have hg : x.scene.streamGone = false := j.served_streamGone w capacity hclose hdrop
        refine ⟨_, ?_, hread⟩
        rw [(Job.received_of_ended hS hg hn).2]
        exact Job.deliveries_of_ending hA ended (result_failed j.shape he.ne_cancelled)
  · intro e hc hh
    cases e with
    | complaint c => exact absurd rfl (hc c)
    | handedOn s => exact absurd rfl (hh s)
    | unexpected | cancelled => exact Complaint.ofStatus?_eq_none rfl
  · intro decision status h
    cases decision <;> cases h <;> exact Complaint.ofStatus?_eq_none rfl
  · intro α σ j w moves
    constructor
    · intro outbox ending hc hh status hr
      have hA := j.accounts_direct w outbox moves
      rw [hA.result?] at hr
      exact ofStatus?_of_told (Job.told_of_accounts hA hr) hc hh
    · intro capacity ending hc hh status hm
      obtain ⟨call, hA, hcarried⟩ := Job.Served.carried_prefix (j.served_run w capacity moves)
      have hr := Job.result?_of_mem_deliveries (hcarried.subset (List.mem_append_left _ hm))
      exact ofStatus?_of_told (Job.told_of_accounts hA hr) hc hh

/-- Two messages with quotes, controls and letters of several alphabets, over two calls. -/
theorem complaint_read_back_over_two_calls :
    let c : Complaint := ⟨["say \"no\"\n", "\\ \x7f é 日 𝄞 \x00"]⟩
    let first := Job.plain [] .free none .unary (Handler.sending ([] : List Nat) (.failed (.complaint c)))
    let moves : List Move := [.turn .handlerFirst]
    ∃ told, ((Exchange.ofCall World.blank none).run first.directTurn moves).call.result? =
        some (.error told) ∧
      let second := Job.plain [] .free none .duplex
        (Handler.sending [1] (.failed (.handedOn told)))
      let x := (Exchange.ofService World.blank ⟨8, by decide, by decide⟩).run second.serve
        [.turn .streamFirst, .take, .take]
      ∃ status, x.received = [.element 1, .failure status] ∧ Complaint.ofStatus? status = some c := by
  intro c first moves
  obtain ⟨hread, -⟩ := complaint_read_back
  obtain ⟨-, hcarried⟩ := hread c
  obtain ⟨-, hfirst⟩ := hcarried (.complaint c) .complained
  obtain ⟨told, hresult, -⟩ := (hfirst first World.blank moves).1 none rfl
  refine ⟨told, hresult, ?_⟩
  intro second x
  have hon : Failure.Carries c (.handedOn told) :=
    .handedOn .complained (.direct first World.blank none moves rfl hresult)
  obtain ⟨-, hsecond⟩ := hcarried (.handedOn told) hon
  obtain ⟨-, hend⟩ := (hsecond second World.blank [.turn .streamFirst, .take, .take]).2
    ⟨8, by decide, by decide⟩ rfl
  obtain ⟨status, hreceived, hstatus⟩ := hend (by decide) (by decide) rfl
  exact ⟨status, hreceived, hstatus⟩

end CallGate
