import CallGate.Proofs.Traffic

/-!
# The share of one call in traffic

In traffic the moves of many calls are mixed with each other and with what happens outside. What one
call has done is picked out of a run by its number. Main statement: `run_keeps_call` reduces what holds
of a call and of its share in every run to how calls are made and to what one move does in any world.
-/

namespace CallGate

namespace Undertaking

def shape : Undertaking → Shape
  | direct shape .. | served shape .. => shape

def call : Undertaking → Call
  | direct _ call .. | served _ call .. => call

variable {g : Gate}

theorem shape_step (u : Undertaking) (move : Move) (w : World) :
    (u.step g move w).1.shape = u.shape := by
  cases u <;> rfl

theorem call_step (u : Undertaking) (move : Move) (w : World) :
    (u.step g move w).1.call = u.call := by
  cases u <;> rfl

end Undertaking

namespace Traffic

variable {β γ : Type} {inMove : Move → World → Undertaking → List β} {g : Gate}

/-- What is listed about an incident if it is a move of the call that was made after `n` others. -/
def listed (inMove : Move → World → Undertaking → List β) (n : Nat) (t : Traffic) : Incident → List β
  | .move m move =>
    if m = n then
      match t.calls[n]? with
      | none => []
      | some u => inMove move t.world u
    else []
  | _ => []

/-- What is listed about the moves of one call in a run. -/
def share (inMove : Move → World → Undertaking → List β) (g : Gate) (n : Nat) :
    Traffic → List Incident → List β
  | _, [] => []
  | t, i :: incidents => t.listed inMove n i ++ share inMove g n (t.step g i) incidents

theorem run_append (t : Traffic) (incidents more : List Incident) :
    t.run g (incidents ++ more) = (t.run g incidents).run g more :=
  List.foldl_append

theorem mem_ledger_iff {entry : Agent × Change} (t : Traffic) (incidents : List Incident) :
    entry ∈ t.ledger g incidents ↔ ∃ before i after, incidents = before ++ i :: after ∧
      entry ∈ (t.run g before).entries g i := by
  induction incidents generalizing t with
  | nil => simp [ledger]
  | cons i incidents ih =>
    rw [ledger, List.mem_append, ih]
    constructor
    · rintro (hentry | ⟨before, i', after, rfl, hentry⟩)
      · exact ⟨[], i, incidents, rfl, hentry⟩
      · exact ⟨i :: before, i', after, rfl, hentry⟩
    · rintro ⟨before, i', after, heq, hentry⟩
      cases before with
      | nil =>
        obtain ⟨rfl, rfl⟩ := List.cons.inj heq
        exact Or.inl hentry
      | cons i'' before =>
        obtain ⟨rfl, rfl⟩ := List.cons.inj heq
        exact Or.inr ⟨before, i', after, rfl, hentry⟩

/-- No call has moved yet. -/
inductive Fresh : Undertaking → Prop where
  | direct {α σ : Type} (shape : Shape) (call : Call) (handler : Handler α σ) (w : World)
      (outbox : Option (Channel (Delivery α))) :
      Fresh (.direct shape call handler (.ofCall w outbox))
  | served {α σ : Type} (shape : Shape) (call : Call) (handler : Handler α σ) (w : World)
      (capacity : Capacity) : Fresh (.served shape call handler (.ofService w capacity))

/-- What an incident does to one call: it is made, it moves, or nothing happens to it. -/
theorem calls_step (inMove : Move → World → Undertaking → List β) (t : Traffic) (i : Incident)
    (n : Nat) {u' : Undertaking} (hu : (t.step g i).calls[n]? = some u') :
    t.calls[n]? = none ∧ Fresh u' ∧ t.listed inMove n i = [] ∨
      ∃ u, t.calls[n]? = some u ∧
        (u' = u ∧ t.listed inMove n i = [] ∨
          ∃ move, i = .move n move ∧ u' = (u.step g move t.world).1 ∧
            t.listed inMove n i = inMove move t.world u) := by
  have kept (h : t.calls[n]? = some u') (hl : t.listed inMove n i = []) :
      ∃ u, t.calls[n]? = some u ∧
        (u' = u ∧ t.listed inMove n i = [] ∨
          ∃ move, i = .move n move ∧ u' = (u.step g move t.world).1 ∧
            t.listed inMove n i = inMove move t.world u) := ⟨u', h, Or.inl ⟨rfl, hl⟩⟩
  have added {new : Undertaking} (hfresh : Fresh new) (h : (t.calls ++ [new])[n]? = some u')
      (hl : t.listed inMove n i = []) :
      t.calls[n]? = none ∧ Fresh u' ∧ t.listed inMove n i = [] ∨ t.calls[n]? = some u' := by
    by_cases hn : n < t.calls.length
    · rw [List.getElem?_append_left hn] at h
      exact Or.inr h
    · have hnone : t.calls[n]? = none := List.getElem?_eq_none (Nat.le_of_not_lt hn)
      rw [List.getElem?_append_right (Nat.le_of_not_lt hn)] at h
      refine Or.inl ⟨hnone, ?_, hl⟩
      cases hm : n - t.calls.length with
      | zero => rw [hm] at h; cases h; exact hfresh
      | succ m => rw [hm] at h; cases h
  cases i with
  | lookUp | screen | setProfile | fire => exact Or.inr (kept hu rfl)
  | make shape call handler outbox =>
    rcases added (.direct shape call handler t.world outbox) hu rfl with h | h
    · exact Or.inl h
    · exact Or.inr (kept h rfl)
  | serve shape call handler capacity =>
    rcases added (.served shape call handler t.world capacity) hu rfl with h | h
    · exact Or.inl h
    · exact Or.inr (kept h rfl)
  | move m move =>
    by_cases hm : m = n
    · subst hm
      simp only [step, listed, if_true] at hu kept ⊢
      cases hu' : t.calls[m]? with
      | none =>
        rw [hu'] at hu
        cases hu'.symm.trans hu
      | some u =>
        rw [hu'] at hu
        have hlt : m < t.calls.length := (List.getElem?_eq_some_iff.mp hu').1
        rw [List.getElem?_set_self hlt] at hu
        refine Or.inr ⟨u, rfl, Or.inr ⟨move, rfl, (Option.some.inj hu).symm, rfl⟩⟩
    · have hl : t.listed inMove n (.move m move) = [] := if_neg hm
      refine Or.inr (kept ?_ hl)
      simp only [step] at hu
      cases hu' : t.calls[m]? with
      | none => rwa [hu'] at hu
      | some u =>
        rw [hu'] at hu
        rwa [List.getElem?_set_ne hm] at hu

theorem calls_step_none (t : Traffic) (i : Incident) {n : Nat}
    (hu : (t.step g i).calls[n]? = none) : t.calls[n]? = none := by
  have hlength : t.calls.length ≤ (t.step g i).calls.length := by
    cases i with
    | lookUp | screen | setProfile | fire => exact Nat.le_refl _
    | make | serve => exact (List.length_append ▸ Nat.le_add_right _ _)
    | move m move =>
      simp only [step]
      cases t.calls[m]? with
      | none => exact Nat.le_refl _
      | some u => exact Nat.le_of_eq List.length_set.symm
  rw [List.getElem?_eq_none_iff] at hu ⊢
  exact Nat.le_trans hlength hu

/-- What is so of every call that has just been made, and is kept by all its moves in whatever world,
is so of each call of a run. -/
theorem run_keeps_call {I : Undertaking → List β → Prop} (fresh : ∀ u, Fresh u → I u [])
    (moved : ∀ {u l} move w, I u l → I (u.step g move w).1 (l ++ inMove move w u)) (w : World)
    (incidents : List Incident) {n : Nat} {u : Undertaking}
    (hu : ((start w).run g incidents).calls[n]? = some u) :
    I u (share inMove g n (start w) incidents) := by
  -- In the course of the induction the call may have been made before, with `l` as its share so far.
  have run (incidents : List Incident) : ∀ (t : Traffic) (l : List β),
      (∀ u, t.calls[n]? = some u → I u l) → (t.calls[n]? = none → l = []) →
      ∀ u, (t.run g incidents).calls[n]? = some u → I u (l ++ share inMove g n t incidents) := by
    induction incidents with
    | nil =>
      intro t l hI _ u hu
      rw [share, List.append_nil]
      exact hI u hu
    | cons i incidents ih =>
      intro t l hI hl u hu
      rw [share, ← List.append_assoc]
      refine ih (t.step g i) _ ?_ ?_ u hu
      · intro u' hu'
        rcases t.calls_step inMove i n hu' with ⟨hnone, hfresh, hlisted⟩ | ⟨before, hbefore, hmove⟩
        · rw [hlisted, hl hnone]
          exact fresh u' hfresh
        · have hI' := hI before hbefore
          rcases hmove with ⟨rfl, hlisted⟩ | ⟨move, rfl, rfl, hlisted⟩
          · rw [hlisted, List.append_nil]
            exact hI'
          · rw [hlisted]
            exact moved move t.world hI'
      · intro hnone
        have hbefore := t.calls_step_none i hnone
        have hlisted : t.listed inMove n i = [] := by
          cases i with
          | move m move =>
            simp only [listed, hbefore]
            split <;> rfl
          | _ => rfl
        rw [hl hbefore, hlisted, List.append_nil]
  exact run incidents (start w) [] (fun _ h => nomatch h) (fun _ => rfl) u hu

/-- What is read off a list piece by piece can be read off the moves before they are put together. -/
theorem share_comp (inMove : Move → World → Undertaking → List β) {f : List β → List γ} (nil : f [] = [])
    (append : ∀ l l', f (l ++ l') = f l ++ f l') (n : Nat) (t : Traffic) (incidents : List Incident) :
    share (fun move w u => f (inMove move w u)) g n t incidents = f (share inMove g n t incidents) := by
  induction incidents generalizing t with
  | nil => exact nil.symm
  | cons i incidents ih =>
    rw [share, share, append, ih]
    cases i with
    | move m move =>
      simp only [listed]
      by_cases hm : m = n
      · simp only [if_pos hm]
        cases t.calls[n]? with
        | none => rw [nil]
        | some u => rfl
      · simp only [if_neg hm, nil]
    | _ => simp only [listed, nil]

end Traffic

end CallGate
