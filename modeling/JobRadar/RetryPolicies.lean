import JobRadar.NotificationModel
import JobRadar.RunAttempts

namespace JobRadar

open Python Stages

/-- What an operation raises: an `AdapterError`, an `Exception` of another class, or what is no
`Exception`, such as a cancellation. -/
inductive Raised
  | adapterError (message : Text) (retryable : Bool)
  | exception (error : ProviderError)
  | cancelled

/-- What `except Exception` takes of it, with the attributes that `is_retryable` looks at. -/
def Raised.caught : Raised → Option ProviderError
  | .adapterError message retryable => some { message, retryable }
  | .exception error => some error
  | .cancelled => none

inductive Handled (α : Type)
  | value (value : α)
  | deadLetter (attempts : Nat) (error : Text)
  /-- `None`, where no attempt is allowed. -/
  | nothing

namespace Retry

variable {α : Type}

def exhausted : Raised := .exception { message := text "retry operation exhausted" }

/-- The loop of `with_retries`, with the invocations of the operation so far. It ends with their
number and what the call returns or raises. -/
def attemptFrom (operation : Nat → Except Raised α) (attempts : Nat) :
    (attempt left calls : Nat) → Nat × Except Raised α
  | _, 0, calls => (calls, .error exhausted)
  | attempt, left + 1, calls =>
    match operation calls with
    | .ok value => (calls + 1, .ok value)
    | .error (.adapterError message retryable) =>
      if retryable = false ∨ attempt = attempts - 1 then
        (calls + 1, .error (.adapterError message retryable))
      else attemptFrom operation attempts (attempt + 1) left (calls + 1)
    | .error error => (calls + 1, .error error)

def withRetries (operation : Nat → Except Raised α) (attempts : Nat) : Nat × Except Raised α :=
  attemptFrom operation attempts 0 attempts 0

/-- The loop of `run_with_dead_letter`. -/
def whileAttempts (operation : Nat → Except Raised α) (maxAttempts attempts calls : Nat) :
    Nat × Except Raised (Handled α) :=
  if attempts < maxAttempts then
    match operation calls with
    | .ok value => (calls + 1, .ok (.value value))
    | .error error =>
      match error.caught with
      | none => (calls + 1, .error error)
      | some caught =>
        if isRetryable caught = false ∨ attempts + 1 = maxAttempts then
          (calls + 1, .ok (.deadLetter (attempts + 1) caught.message))
        else whileAttempts operation maxAttempts (attempts + 1) (calls + 1)
  else (calls, .ok .nothing)
termination_by maxAttempts - attempts

def runWithDeadLetter (operation : Nat → Except Raised α) (maxAttempts : Nat) :
    Nat × Except Raised (Handled α) :=
  whileAttempts operation maxAttempts 0 0

def Retries (outcome : Except Raised α) : Prop :=
  ∃ message, outcome = .error (.adapterError message true)

def Redelivers (outcome : Except Raised α) : Prop :=
  ∃ error caught, outcome = .error error ∧ error.caught = some caught ∧ isRetryable caught = true

/-- How `run_with_dead_letter` ends with this outcome of the last attempt. -/
def handled (attempts : Nat) : Except Raised α → Except Raised (Handled α)
  | .ok value => .ok (.value value)
  | .error error =>
    match error.caught with
    | none => .error error
    | some caught => .ok (.deadLetter attempts caught.message)

section Loops

variable {operation : Nat → Except Raised α} {n i : Nat}

theorem attemptFrom_stop {attempts attempt left calls : Nat}
    (h : Retries (operation calls) → attempt = attempts - 1) :
    attemptFrom operation attempts attempt (left + 1) calls = (calls + 1, operation calls) := by
  rw [attemptFrom]
  split
  next value hvalue => rw [hvalue]
  next message retryable herror =>
    rw [if_pos, herror]
    cases retryable with
    | false => exact Or.inl rfl
    | true => exact Or.inr (h ⟨message, herror⟩)
  next error _ herror => rw [herror]

theorem attemptFrom_go {attempts attempt left calls : Nat} (h : Retries (operation calls))
    (hattempt : attempt ≠ attempts - 1) :
    attemptFrom operation attempts attempt (left + 1) calls =
      attemptFrom operation attempts (attempt + 1) left (calls + 1) := by
  obtain ⟨message, herror⟩ := h
  rw [attemptFrom, herror]
  simp [hattempt]

theorem withRetries_last (h : Last (fun j => Retries (operation j)) n i) :
    withRetries operation n = (i + 1, operation i) := by
  have hi := h.lt
  have hloop : withRetries operation n = attemptFrom operation n i (n - i) i := by
    refine h.loop_eq (fun j => attemptFrom operation n j (n - j) j) ?_
    intro j hretries hj
    rw [show n - j = n - (j + 1) + 1 by omega]
    exact attemptFrom_go hretries (by omega)
  rw [hloop, show n - i = n - (i + 1) + 1 by omega]
  apply attemptFrom_stop
  intro hretries
  have hlast := h.stops hretries
  omega

theorem whileAttempts_stop {maxAttempts attempts calls : Nat} (hattempts : attempts < maxAttempts)
    (h : Redelivers (operation calls) → attempts + 1 = maxAttempts) :
    whileAttempts operation maxAttempts attempts calls =
      (calls + 1, handled (attempts + 1) (operation calls)) := by
  rw [whileAttempts, if_pos hattempts]
  split
  next value hvalue => rw [hvalue]; rfl
  next error herror =>
    rw [herror, handled]
    split
    next hcaught => rfl
    next caught hcaught =>
      rw [if_pos]
      cases hretryable : isRetryable caught with
      | false => exact Or.inl rfl
      | true => exact Or.inr (h ⟨error, caught, herror, hcaught, hretryable⟩)

theorem whileAttempts_go {maxAttempts attempts calls : Nat} (hattempts : attempts + 1 < maxAttempts)
    (h : Redelivers (operation calls)) : whileAttempts operation maxAttempts attempts calls =
      whileAttempts operation maxAttempts (attempts + 1) (calls + 1) := by
  obtain ⟨error, caught, herror, hcaught, hretryable⟩ := h
  rw [whileAttempts, if_pos (by omega), herror]
  simp only [hcaught]
  rw [if_neg]
  simp only [hretryable, Bool.true_eq_false, false_or]
  omega

theorem runWithDeadLetter_last (h : Last (fun j => Redelivers (operation j)) n i) :
    runWithDeadLetter operation n = (i + 1, handled (i + 1) (operation i)) := by
  have hloop : runWithDeadLetter operation n = whileAttempts operation n i i :=
    h.loop_eq (fun j => whileAttempts operation n j j) fun j hretries hj =>
      whileAttempts_go hj hretries
  exact hloop.trans (whileAttempts_stop h.lt h.stops)

end Loops

/-- The outcomes that the two loops are meant for. -/
inductive Outcome (α : Type)
  | value (value : α)
  | retryable (message : Text)
  | permanent (message : Text)

namespace Outcome

def ended : Outcome α → Except Raised α
  | .value v => .ok v
  | .retryable message => .error (.adapterError message true)
  | .permanent message => .error (.adapterError message false)

def IsRetryable : Outcome α → Prop
  | .retryable _ => True
  | _ => False

theorem retries_iff {outcome : Outcome α} : Retries outcome.ended ↔ outcome.IsRetryable := by
  cases outcome <;> simp [Retries, ended, IsRetryable]

theorem redelivers_iff {outcome : Outcome α} : Redelivers outcome.ended ↔ outcome.IsRetryable := by
  cases outcome <;> simp [Redelivers, ended, IsRetryable, Raised.caught, isRetryable]

end Outcome

/-- Both loops invoke the operation up to the first value or permanent error, though at most `n`
times. They end in the same value, or else in the last error: one raises it, and the other returns
its text with the number of attempts. -/
theorem retry_policies_agree (outcomes : Nat → Outcome α) (n : Nat) (hn : 0 < n) :
    let operation := fun k => (outcomes k).ended
    ∃ i, Last (fun j => (outcomes j).IsRetryable) n i ∧
      (withRetries operation n).1 = i + 1 ∧ (runWithDeadLetter operation n).1 = i + 1 ∧
      (∀ value, (withRetries operation n).2 = .ok value ↔
        (runWithDeadLetter operation n).2 = .ok (.value value)) ∧
      ((∃ value, (withRetries operation n).2 = .ok value) ∨
        ∃ message retryable, operation i = .error (.adapterError message retryable) ∧
          (withRetries operation n).2 = .error (.adapterError message retryable) ∧
          (runWithDeadLetter operation n).2 = .ok (.deadLetter (i + 1) message)) := by
  intro operation
  obtain ⟨i, hlast⟩ := exists_last (fun j => (outcomes j).IsRetryable) hn
  have hretries : (fun j => (outcomes j).IsRetryable) = fun j => Retries (operation j) :=
    funext fun j => propext Outcome.retries_iff.symm
  have hredelivers : (fun j => (outcomes j).IsRetryable) = fun j => Redelivers (operation j) :=
    funext fun j => propext Outcome.redelivers_iff.symm
  have hwith := withRetries_last (hretries ▸ hlast)
  have hrun := runWithDeadLetter_last (hredelivers ▸ hlast)
  refine ⟨i, hlast, congrArg Prod.fst hwith, congrArg Prod.fst hrun, ?_⟩
  rw [hwith, hrun]
  cases houtcome : outcomes i with
  | value value => simp [operation, houtcome, Outcome.ended, handled]
  | retryable message => simp [operation, houtcome, Outcome.ended, handled, Raised.caught]
  | permanent message => simp [operation, houtcome, Outcome.ended, handled, Raised.caught]

def downTwice : Nat → Outcome Nat
  | 0 => .retryable (text "down")
  | 1 => .retryable (text "down")
  | attempt => .value attempt

theorem downTwice_agrees : (withRetries (fun k => (downTwice k).ended) 2).1 =
    (runWithDeadLetter (fun k => (downTwice k).ended) 2).1 := by
  obtain ⟨i, -, hwith, hrun, -⟩ := retry_policies_agree downTwice 2 (by decide)
  exact hwith.trans hrun.symm

end Retry

section Fetch

variable {operation : Nat → Attempt} {n : Nat}

/-- An error of a fetch as the loops see it, with its text where it is no `AdapterError`. -/
def PyError.raised (str : PyError → Text) : PyError → Raised
  | .adapterError message retryable => .adapterError message retryable
  | error => .exception { message := str error }

theorem withRetries_ended (str : PyError → Text) (hn : 0 < n) :
    (Retry.withRetries (fun k => (operation k).ended.mapError (PyError.raised str)) n).2 =
      (withRetries operation 0 n).ended.mapError (PyError.raised str) := by
  obtain ⟨i, hlast⟩ := exists_last (fun j => (operation j).Retries) hn
  have hretries : (fun j => (operation j).Retries) =
      fun j => Retry.Retries ((operation j).ended.mapError (PyError.raised str)) := by
    funext j
    rw [Attempt.retries_iff, Retry.Retries]
    cases (operation j).ended with
    | ok value => simp [Except.mapError]
    | error e => cases e <;> simp [Except.mapError, PyError.raised]
  rw [Retry.withRetries_last (hretries ▸ hlast), (withRetries_last hlast).1]

end Fetch

end JobRadar
