import Lumo.LabelledRuns
import Lumo.TrackingDelivery

/-! # Deliveries to one destination, one after the other

Each call is handed the state that the one before it returned, under a clock that never goes back.
A call that throws hands nothing on, and the sequence ends there. -/
namespace Tracking

open LabelledRuns

/-- The call in hand, the clock, and what has been seen of the requests: when each was made, the
latest first, how many of them have failed since the last success, and how many have succeeded
since the circuit was last half-opened. -/
structure Calls where
  point : DeliveryPoint
  now : ℚ
  sends : List ℚ
  failuresInRow : ℕ
  probesInRow : ℕ

/-- The next call starts from what the last one returned. -/
def DeliveryPoint.again : DeliveryPoint → DeliveryPoint
  | .returned _ held => .starting held
  | point => point

def DeliveryPoint.held : DeliveryPoint → DestinationRuntimeState
  | .starting held => held
  | .claiming held => held
  | .attempting _ held => held
  | .burying _ _ held => held
  | .returned _ held => held

@[simp] theorem DeliveryPoint.again_held (point : DeliveryPoint) :
    point.again.held = point.held := by
  cases point <;> rfl

def readings (point : DeliveryPoint) : DeliveryAnswer → List ℚ
  | .starts startedAt _ => [startedAt]
  | .claims _ _ => []
  | .sends pacing sentAt answeredAt _ =>
    match point with
    | .attempting 0 _ => [sentAt, answeredAt]
    | _ => [pacing.probedAt, pacing.resumedAt, sentAt, answeredAt]
  | .buries => []

def clockAfter (now : ℚ) : List ℚ → Option ℚ
  | [] => some now
  | t :: ts => if now ≤ t then clockAfter t ts else none

namespace Calls

def circuit (calls : Calls) : CircuitState := calls.point.held.circuit

def sendsAfter (calls : Calls) : DeliveryAnswer → List ℚ
  | .sends _ sentAt _ _ => sentAt :: calls.sends
  | _ => calls.sends

def failuresAfter (calls : Calls) : DeliveryAnswer → ℕ
  | .sends _ _ _ response => if response.ok then 0 else calls.failuresInRow + 1
  | _ => calls.failuresInRow

def probesAfter (calls : Calls) (after : DeliveryPoint) : DeliveryAnswer → ℕ
  | .sends _ _ _ response =>
    if response.ok ∧ calls.circuit.status = .halfOpen then calls.probesInRow + 1 else 0
  | _ =>
    if calls.circuit.status = .open ∧ after.held.circuit.status = .halfOpen then 0
    else calls.probesInRow

def next (policy : DeliveryPolicy) (calls : Calls) (answer : DeliveryAnswer) : Option Calls :=
  let point := calls.point.again
  match deliver policy point answer, clockAfter calls.now (readings point answer) with
  | some after, some now =>
    some {
      point := after
      now := now
      sends := calls.sendsAfter answer
      failuresInRow := calls.failuresAfter answer
      probesInRow := calls.probesAfter after answer }
  | _, _ => none

def Step (policy : DeliveryPolicy) (calls : Calls) (answer : DeliveryAnswer) (after : Calls) :
    Prop :=
  calls.next policy answer = some after

/-- The destination as it is first seen: a closed circuit and a full bucket. -/
def first (policy : DeliveryPolicy) (now : ℚ) : Calls where
  point := .starting ⟨initialCircuit, match policy.rateLimit with
    | none => ⟨0, now⟩
    | some limit => initialRateLimit limit now⟩
  now := now
  sends := []
  failuresInRow := 0
  probesInRow := 0

end Calls

/-- Everything that a step of the calls can be. -/
inductive CallStep (policy : DeliveryPolicy) (calls : Calls) :
    DeliveryAnswer → Calls → Prop where
  | blocked {startedAt breach held} (hpoint : calls.point.again = .starting held)
      (hclock : calls.now ≤ startedAt) :
      CallStep policy calls (.starts startedAt (some breach))
        { calls with
          point := .returned (.blocked breach) held
          now := startedAt
          probesInRow := calls.probesAfter (.returned (.blocked breach) held)
            (.starts startedAt (some breach)) }
  | admitted {startedAt held} (hpoint : calls.point.again = .starting held)
      (hclock : calls.now ≤ startedAt) :
      CallStep policy calls (.starts startedAt none)
        { calls with
          point := admission policy held startedAt
          now := startedAt
          probesInRow := calls.probesAfter (admission policy held startedAt)
            (.starts startedAt none) }
  | claimed {isNew unready held after} (hpoint : calls.point = .claiming held)
      (hafter : after = .attempting 0 held ∨ ∃ outcome, after = .returned outcome held) :
      CallStep policy calls (.claims isNew unready)
        { calls with
          point := after
          probesInRow := calls.probesAfter after (.claims isNew unready) }
  | sent {attempts held pacing sentAt answeredAt response rateLimit}
      (hpoint : calls.point = .attempting attempts held)
      (hpace : rateLimit = if attempts = 0 then held.rateLimit
        else pace policy held.rateLimit pacing)
      (hfirst : attempts = 0 → calls.now ≤ sentAt)
      (hlater : attempts ≠ 0 → calls.now ≤ pacing.probedAt ∧ pacing.probedAt ≤ pacing.resumedAt ∧
        pacing.resumedAt ≤ sentAt)
      (hclock : sentAt ≤ answeredAt) :
      CallStep policy calls (.sends pacing sentAt answeredAt response)
        { point := afterResponse policy (attempts + 1) { held with rateLimit := rateLimit }
            answeredAt response
          now := answeredAt
          sends := sentAt :: calls.sends
          failuresInRow := if response.ok then 0 else calls.failuresInRow + 1
          probesInRow := if response.ok ∧ calls.circuit.status = .halfOpen
            then calls.probesInRow + 1 else 0 }
  | buried {attempts lastError held} (hpoint : calls.point = .burying attempts lastError held) :
      CallStep policy calls .buries
        { calls with
          point := .returned (.deadLettered attempts lastError) held
          probesInRow := calls.probesAfter (.returned (.deadLettered attempts lastError) held)
            .buries }

theorem DeliveryPoint.eq_of_again {point point' : DeliveryPoint} (h : point.again = point')
    (hstarting : ∀ held, point' ≠ .starting held) : point = point' := by
  cases point with
  | returned outcome held => exact absurd h.symm (hstarting held)
  | _ => exact h

theorem deliver_claims {policy : DeliveryPolicy} {point after : DeliveryPoint} {isNew : Bool}
    {unready : Option EnforcementFailure} (h : deliver policy point (.claims isNew unready) = some after) :
    ∃ held, point = .claiming held ∧
      (after = .attempting 0 held ∨ ∃ outcome, after = .returned outcome held) := by
  cases point with
  | claiming held =>
    refine ⟨held, rfl, ?_⟩
    cases isNew with
    | false =>
      cases h
      exact .inr ⟨_, rfl⟩
    | true =>
      cases unready with
      | none =>
        cases h
        exact .inl rfl
      | some failure =>
        cases h
        exact .inr ⟨_, rfl⟩
  | _ => cases h

theorem clockAfter_cons {now t : ℚ} {ts : List ℚ} {later : ℚ}
    (h : clockAfter now (t :: ts) = some later) : now ≤ t ∧ clockAfter t ts = some later := by
  rw [clockAfter] at h
  split at h
  · rename_i hle
    exact ⟨hle, h⟩
  · cases h

theorem Calls.step_cases {policy : DeliveryPolicy} {calls after : Calls} {answer : DeliveryAnswer}
    (h : Calls.Step policy calls answer after) : CallStep policy calls answer after := by
  rw [Calls.Step, Calls.next] at h
  split at h
  · rename_i point now hpoint hclock
    cases answer with
    | starts startedAt breach =>
      obtain ⟨hstarted, hnow⟩ := clockAfter_cons hclock
      cases hnow
      cases hagain : calls.point.again with
      | starting held =>
        rw [hagain] at hpoint
        cases breach with
        | none =>
          cases hpoint
          cases h
          exact .admitted hagain hstarted
        | some breach =>
          cases hpoint
          cases h
          exact .blocked hagain hstarted
      | _ =>
        rw [hagain] at hpoint
        cases breach <;> cases hpoint
    | claims isNew unready =>
      cases hclock
      obtain ⟨held, hheld, hafter⟩ := deliver_claims hpoint
      cases h
      exact .claimed (DeliveryPoint.eq_of_again hheld (by simp)) hafter
    | sends pacing sentAt answeredAt response =>
      cases hagain : calls.point.again with
      | attempting attempts held =>
        rw [hagain] at hpoint hclock
        cases hpoint
        have hbefore := DeliveryPoint.eq_of_again hagain (by simp)
        cases attempts with
        | zero =>
          obtain ⟨hsent, hclock⟩ := clockAfter_cons hclock
          obtain ⟨hanswered, hnow⟩ := clockAfter_cons hclock
          cases hnow
          cases h
          exact .sent hbefore rfl (fun _ => hsent) (fun h => absurd rfl h) hanswered
        | succ attempts =>
          obtain ⟨hprobed, hclock⟩ := clockAfter_cons hclock
          obtain ⟨hresumed, hclock⟩ := clockAfter_cons hclock
          obtain ⟨hsent, hclock⟩ := clockAfter_cons hclock
          obtain ⟨hanswered, hnow⟩ := clockAfter_cons hclock
          cases hnow
          cases h
          exact .sent hbefore rfl (fun h => by cases h) (fun _ => ⟨hprobed, hresumed, hsent⟩)
            hanswered
      | _ =>
        rw [hagain] at hpoint
        cases hpoint
    | buries =>
      cases hclock
      cases hagain : calls.point.again with
      | burying attempts lastError held =>
        rw [hagain] at hpoint
        cases hpoint
        cases h
        exact .buried (DeliveryPoint.eq_of_again hagain (by simp))
      | _ =>
        rw [hagain] at hpoint
        cases hpoint
  · cases h

end Tracking
