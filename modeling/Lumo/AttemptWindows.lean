import Mathlib.Data.Int.Order.Basic
import Mathlib.Data.List.TakeWhile

/-! # Attempts counted in windows of time

The first attempt opens a window. It counts the attempts until one comes when the window is over,
which opens the next. Nothing is assumed of the clock: an attempt that comes before the window
opened still counts in it. -/
namespace AttemptWindows

structure Counter where
  start : Option ℤ
  count : ℕ

def Counter.empty : Counter := ⟨none, 0⟩

variable {width : ℤ} {limit : ℕ}

def record (width now : ℤ) (c : Counter) : Counter :=
  if c.start.all fun start => decide (width ≤ now - start) then ⟨some now, 1⟩
  else ⟨c.start, c.count + 1⟩

def locked (width : ℤ) (limit : ℕ) (now : ℤ) (c : Counter) : Bool :=
  (c.start.any fun start => decide (now - start < width)) && decide (limit ≤ c.count)

def windows (width : ℤ) : List ℤ → List (List ℤ)
  | [] => []
  | start :: rest =>
    (start :: rest.takeWhile fun now => decide (now - start < width)) ::
      windows width (rest.dropWhile fun now => decide (now - start < width))
  termination_by attempts => attempts.length
  decreasing_by
    exact Nat.lt_succ_of_le (List.dropWhile_suffix _).length_le

def lastWindow (width : ℤ) (attempts : List ℤ) : List ℤ := (windows width attempts).getLastD []

/-- The last window has as many attempts as it may, and is not over. -/
def Full (width : ℤ) (limit : ℕ) (attempts : List ℤ) (now : ℤ) : Prop :=
  limit ≤ (lastWindow width attempts).length ∧
    ∃ start ∈ (lastWindow width attempts).head?, now - start < width

def ofWindow (window : List ℤ) : Counter := ⟨window.head?, window.length⟩

theorem foldl_record_within {start : ℤ} {attempts : List ℤ}
    (h : ∀ now ∈ attempts, now - start < width) (n : ℕ) :
    attempts.foldl (fun c now => record width now c) ⟨some start, n⟩ =
      ⟨some start, n + attempts.length⟩ := by
  induction attempts generalizing n with
  | nil => rfl
  | cons now rest ih =>
    have hwithin : ¬ width ≤ now - start := not_le.mpr (h now List.mem_cons_self)
    rw [List.foldl_cons, record, if_neg (by simpa using hwithin)]
    rw [ih (fun t ht => h t (List.mem_cons_of_mem now ht))]
    rw [List.length_cons]
    rw [Nat.add_right_comm, Nat.add_assoc]

theorem foldl_record_over {start : ℤ} {n : ℕ} {now : ℤ} (rest : List ℤ)
    (h : ¬ now - start < width) :
    (now :: rest).foldl (fun c now => record width now c) ⟨some start, n⟩ =
      (now :: rest).foldl (fun c now => record width now c) Counter.empty := by
  have hover : record width now ⟨some start, n⟩ = record width now Counter.empty := by
    rw [record, if_pos (by simpa using not_lt.mp h)]
    rfl
  rw [List.foldl_cons, List.foldl_cons, hover]

theorem foldl_record (attempts : List ℤ) :
    attempts.foldl (fun c now => record width now c) Counter.empty =
      ofWindow (lastWindow width attempts) := by
  induction attempts using windows.induct width with
  | case1 =>
    rw [lastWindow, windows]
    rfl
  | case2 start rest ih =>
    have hsplit := List.takeWhile_append_dropWhile
      (p := fun now => decide (now - start < width)) (l := rest)
    have hwithin : ∀ now ∈ rest.takeWhile fun now => decide (now - start < width),
        now - start < width := by
      intro now hnow
      simpa using List.mem_takeWhile_imp hnow
    have hfirst : record width start Counter.empty = ⟨some start, 1⟩ := rfl
    rw [List.foldl_cons, hfirst, lastWindow, windows]
    conv_lhs => rw [← hsplit]
    rw [List.foldl_append, foldl_record_within hwithin]
    cases hlater : rest.dropWhile fun now => decide (now - start < width) with
    | nil =>
      rw [windows]
      simp [ofWindow, Nat.add_comm]
    | cons now later =>
      have hover : ¬ now - start < width := by
        have hhead := List.head_dropWhile_not
          (fun now => decide (now - start < width)) (l := rest) (by rw [hlater]; simp)
        simpa [hlater] using hhead
      rw [hlater] at ih
      rw [foldl_record_over later hover, ih, lastWindow, List.getLastD_cons, windows]
      rfl

theorem locked_ofWindow (attempts : List ℤ) (now : ℤ) :
    locked width limit now (ofWindow (lastWindow width attempts)) = true ↔
      Full width limit attempts now := by
  rw [locked, Bool.and_eq_true, decide_eq_true_eq, Option.any_eq_true, and_comm]
  simp only [ofWindow, Full, decide_eq_true_eq, Option.mem_def]

end AttemptWindows
