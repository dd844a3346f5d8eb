import CallGate.Proofs.Variables
import CallGate.Rehearsal.Session

/-!
# Which settings leave room for a stream

The size of the channel behind a response stream is a setting, and not every number is the size of a
channel. Settings are checked before they are used, but only that the size is not zero. Main
statement: `stream_made_iff` says for which of the settings that pass the check streams can be made.
-/

namespace CallGate

namespace Capacity

/-- There is a channel of every size but zero, up to the greatest one. -/
theorem ofNat_cases (n : Nat) :
    n = 0 ∧ ofNat n = .error .zero ∨
      (∃ capacity, (0 < n ∧ n ≤ maxCapacity) ∧ ofNat n = .ok capacity ∧ capacity.size = n) ∨
      maxCapacity < n ∧ ofNat n = .error .tooLarge := by
  unfold ofNat
  by_cases pos : 0 < n
  · rw [dif_pos pos]
    by_cases le : n ≤ maxCapacity
    · rw [dif_pos le]
      exact Or.inr (Or.inl ⟨⟨n, pos, le⟩, ⟨pos, le⟩, rfl, rfl⟩)
    · rw [dif_neg le]
      exact Or.inr (Or.inr ⟨Nat.lt_of_not_le le, rfl⟩)
  · rw [dif_neg pos]
    exact Or.inl ⟨Nat.eq_zero_of_not_pos pos, rfl⟩

theorem exists_ofNat {n : Nat} (pos : 0 < n) (le : n ≤ maxCapacity) :
    ∃ capacity, ofNat n = .ok capacity ∧ capacity.size = n := by
  rcases ofNat_cases n with ⟨rfl, -⟩ | ⟨capacity, -, hok, hsize⟩ | ⟨hlt, -⟩
  · exact absurd pos (Nat.lt_irrefl 0)
  · exact ⟨capacity, hok, hsize⟩
  · omega

theorem ofNat_eq_tooLarge {n : Nat} (lt : maxCapacity < n) : ofNat n = .error .tooLarge := by
  rcases ofNat_cases n with ⟨rfl, -⟩ | ⟨capacity, ⟨-, le⟩, -⟩ | ⟨-, htooLarge⟩
  · omega
  · omega
  · exact htooLarge

end Capacity

namespace Settings

variable {s : Settings}

theorem streamBuffer_pos_of_fault? (hs : s.fault? = none) : 0 < s.streamBuffer.toNat := by
  unfold fault? at hs
  split at hs
  · cases hs
  split at hs
  · cases hs
  split at hs
  · cases hs
  · next hzero =>
    have hne : s.streamBuffer ≠ 0 := fun h => hzero (beq_iff_eq.mpr h)
    have htoNat : s.streamBuffer.toNat ≠ 0 := fun h => hne (UInt64.toNat_inj.mp h)
    omega

/-- Settings that variables give have passed the check. -/
theorem fault?_of_ofVariables {environment : List (String × String)}
    (h : ofVariables environment = .ok s) : s.fault? = none := by
  obtain ⟨_, _, _, hfault⟩ := ofVariables_eq_ok_iff.mp h
  exact hfault

end Settings

namespace Rehearsal.Session

variable {s : Session}

/-- A session can make a stream of every size that a channel can have. -/
theorem answers_of_capacity {capacity : Capacity}
    (h : Capacity.ofNat s.settings.streamBuffer.toNat = .ok capacity) (shape : Shape) (call : Call)
    (script : Script) :
    (∀ caller, ∃ answer, s.serve shape call script caller = .ok answer) ∧
      ∀ receiver, ∃ answer, s.stream shape call script receiver = .ok answer := by
  constructor
  · intro caller
    unfold serve
    rw [h]
    exact ⟨_, rfl⟩
  · intro receiver
    unfold stream
    rw [h]
    exact ⟨_, rfl⟩

theorem fails_of_capacityError {e : CapacityError}
    (h : Capacity.ofNat s.settings.streamBuffer.toNat = .error e) (shape : Shape) (call : Call)
    (script : Script) :
    (∀ caller, s.serve shape call script caller = .error e) ∧
      ∀ receiver, s.stream shape call script receiver = .error e := by
  constructor
  · intro caller
    unfold serve
    rw [h]
    rfl
  · intro receiver
    unfold stream
    rw [h]
    rfl

end Rehearsal.Session

namespace Settings

open Rehearsal

/-- With settings that pass the check, a stream can be made just if its size is not too large for a
channel. Then every call with a stream is served or made, over a channel of that size; otherwise not
one is, whatever the call, its handler and its caller are like. -/
theorem stream_made_iff (s : Settings) (hs : s.fault? = none) :
    let size := s.streamBuffer.toNat
    (size ≤ 2305843009213693951 →
      (∃ capacity, Capacity.ofNat size = .ok capacity ∧ capacity.size = size) ∧
        ∀ session : Session, session.settings = s → ∀ shape call script,
          (∀ caller, ∃ answer, session.serve shape call script caller = .ok answer) ∧
            ∀ receiver, ∃ answer, session.stream shape call script receiver = .ok answer) ∧
    (2305843009213693951 < size →
      Capacity.ofNat size = .error .tooLarge ∧
        ∀ session : Session, session.settings = s → ∀ shape call script,
          (∀ caller, session.serve shape call script caller = .error .tooLarge) ∧
            ∀ receiver, session.stream shape call script receiver = .error .tooLarge) := by
  intro size
  have hpos : 0 < size := streamBuffer_pos_of_fault? hs
  constructor
  · intro hle
    obtain ⟨capacity, hok, hsize⟩ := Capacity.exists_ofNat hpos hle
    refine ⟨⟨capacity, hok, hsize⟩, ?_⟩
    rintro session rfl shape call script
    exact Session.answers_of_capacity hok shape call script
  · intro hlt
    have htooLarge : Capacity.ofNat size = .error .tooLarge := Capacity.ofNat_eq_tooLarge hlt
    refine ⟨htooLarge, ?_⟩
    rintro session rfl shape call script
    exact Session.fails_of_capacityError htooLarge shape call script

/-- The standard size is far from too large. -/
theorem stream_made_standard :
    standard.fault? = none ∧ ∀ session : Session, session.settings = standard →
      ∀ shape call script caller, ∃ answer, session.serve shape call script caller = .ok answer := by
  have hs : standard.fault? = none := by decide +kernel
  obtain ⟨hmade, -⟩ := stream_made_iff standard hs
  obtain ⟨-, hserved⟩ := hmade (by decide)
  exact ⟨hs, fun session hsession shape call script => (hserved session hsession shape call script).1⟩

/-- The least size that is too large can be given by a variable and passes the check. -/
theorem stream_not_made :
    let s := { standard with streamBuffer := 2305843009213693952 }
    let session : Session := ⟨s, .empty, false, .initial (fun _ => .powerless) fun _ => ⟨⟨0, by decide⟩⟩, 0⟩
    let call : Call := ⟨"/svc/Watch", "svc", .empty, none, none, .own 0⟩
    ofVariables [("AUTHZ_STREAM_BUFFER", "2305843009213693952")] = .ok s ∧ s.fault? = none ∧
      session.serve .serverStreaming call ⟨[], .null, []⟩ [.drain] = .error .tooLarge ∧
      session.serve .duplex call ⟨[], .null, []⟩ [.drain] = .error .tooLarge := by
  intro s session call
  have hok : ofVariables [("AUTHZ_STREAM_BUFFER", "2305843009213693952")] = .ok s := by
    rfl
  have htooLarge : Capacity.ofNat s.streamBuffer.toNat = .error .tooLarge :=
    Capacity.ofNat_eq_tooLarge (by decide)
  have hfails (shape : Shape) :=
    (Session.fails_of_capacityError (s := session) htooLarge shape call ⟨[], .null, []⟩).1
  exact ⟨hok, fault?_of_ofVariables hok, hfails .serverStreaming [.drain], hfails .duplex [.drain]⟩

end Settings

end CallGate
