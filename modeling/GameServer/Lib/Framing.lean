/-
Module: GameServer.Lib.Framing
Purpose: Length-prefixed framing of a symbol stream, one symbol at a time: the frames a stream
  contains, independence of how the stream is cut, and recovery of the frames that were sent.
Trusted boundary: none
Main exports: FrameFormat, FrameFormat.Complete, FrameFormat.feed, feed_append, feed_of_partial,
  feed_of_complete, feed_flatten, held_of_flatten_eq, feed_snd_complete
-/
import Mathlib.Data.List.Basic
import Mathlib.Tactic.Common

namespace GameServer.Lib

/-- A frame starts with a prefix of fixed size that declares the length of the whole frame, the
prefix included. -/
structure FrameFormat (α : Type*) where
  prefixSize : Nat
  declared : List α → Nat
  prefixSize_pos : 0 < prefixSize

namespace FrameFormat

variable {α : Type*} (F : FrameFormat α)

/-- The symbols form one whole frame: the prefix is there and declares exactly their number. -/
def Complete (symbols : List α) : Prop :=
  F.prefixSize ≤ symbols.length ∧ F.declared (symbols.take F.prefixSize) = symbols.length

instance (symbols : List α) : Decidable (F.Complete symbols) :=
  inferInstanceAs (Decidable (_ ∧ _))

/-- Feed a stream to a receiver that holds the symbols `acc` of an unfinished frame.  The result is
what is held afterwards and the frames that were completed, in order. -/
def feed : List α → List α → List α × List (List α)
  | acc, [] => (acc, [])
  | acc, a :: as =>
      if F.Complete (acc ++ [a]) then
        ((feed [] as).1, (acc ++ [a]) :: (feed [] as).2)
      else
        feed (acc ++ [a]) as

@[simp] theorem feed_nil (acc : List α) : F.feed acc [] = (acc, []) := rfl

theorem feed_cons_of_complete {acc : List α} {a : α} (as : List α)
    (complete : F.Complete (acc ++ [a])) :
    F.feed acc (a :: as) = ((F.feed [] as).1, (acc ++ [a]) :: (F.feed [] as).2) := by
  simp [feed, complete]

theorem feed_cons_of_not_complete {acc : List α} {a : α} (as : List α)
    (incomplete : ¬ F.Complete (acc ++ [a])) :
    F.feed acc (a :: as) = F.feed (acc ++ [a]) as := by
  simp [feed, incomplete]

/-- Where the stream is cut does not matter: feeding two pieces one after the other gives the frames
of their concatenation. -/
theorem feed_append (acc xs ys : List α) :
    F.feed acc (xs ++ ys) =
      ((F.feed (F.feed acc xs).1 ys).1, (F.feed acc xs).2 ++ (F.feed (F.feed acc xs).1 ys).2) := by
  induction xs generalizing acc with
  | nil => simp
  | cons a as ih =>
      by_cases complete : F.Complete (acc ++ [a])
      · simp [feed_cons_of_complete F _ complete, ih]
      · simp [feed_cons_of_not_complete F _ complete, ih]

/-- Symbols that complete no frame are all held. -/
theorem feed_of_partial {acc xs : List α}
    (incomplete : ∀ n, 0 < n → n ≤ xs.length → ¬ F.Complete (acc ++ xs.take n)) :
    F.feed acc xs = (acc ++ xs, []) := by
  induction xs generalizing acc with
  | nil => simp
  | cons a as ih =>
      have head : ¬ F.Complete (acc ++ [a]) := by simpa using incomplete 1 (by omega) (by simp)
      rw [feed_cons_of_not_complete F as head, ih]
      · simp
      · intro n npos nle
        have later := incomplete (n + 1) (by omega) (by simpa using nle)
        simpa [List.append_assoc] using later

/-- Symbols whose last one completes a frame, and no earlier one does, give that frame. -/
theorem feed_of_complete {acc xs : List α} (nonempty : xs ≠ [])
    (incomplete : ∀ n, 0 < n → n < xs.length → ¬ F.Complete (acc ++ xs.take n))
    (complete : F.Complete (acc ++ xs)) :
    F.feed acc xs = ([], [acc ++ xs]) := by
  induction xs generalizing acc with
  | nil => exact absurd rfl nonempty
  | cons a as ih =>
      by_cases last : as = []
      · subst last
        simp [feed_cons_of_complete F [] complete]
      · have lengthPos : 0 < as.length := List.length_pos_of_ne_nil last
        have head : ¬ F.Complete (acc ++ [a]) := by
          simpa using incomplete 1 (by omega) (by simpa using lengthPos)
        rw [feed_cons_of_not_complete F as head, ih last]
        · simp
        · intro n npos nlt
          have later := incomplete (n + 1) (by omega) (by simpa using nlt)
          simpa [List.append_assoc] using later
        · simpa [List.append_assoc] using complete

/-- A proper beginning of a whole frame is not a whole frame. -/
theorem not_complete_take {frame : List α} (complete : F.Complete frame) {n : Nat}
    (short : n < frame.length) : ¬ F.Complete (frame.take n) := by
  rintro ⟨hasPrefix, declares⟩
  have lengthTake : (frame.take n).length = n := by simp; omega
  rw [lengthTake] at hasPrefix declares
  rw [List.take_take, Nat.min_eq_left hasPrefix, complete.2] at declares
  omega

theorem Complete.ne_nil {frame : List α} (complete : F.Complete frame) : frame ≠ [] := by
  rintro rfl
  have bound : F.prefixSize ≤ 0 := complete.1
  have positive := F.prefixSize_pos
  omega

/-- One whole frame fed to an empty receiver comes out as it is. -/
theorem feed_frame {frame : List α} (complete : F.Complete frame) :
    F.feed [] frame = ([], [frame]) := by
  have whole : F.feed [] frame = ([], [[] ++ frame]) :=
    F.feed_of_complete complete.ne_nil
      (fun n _ nlt => by simpa using F.not_complete_take complete nlt) (by simpa using complete)
  simpa using whole

/-- The frames sent are the frames received, in order, followed by whatever an unfinished last
frame `rest` leaves held. -/
theorem feed_flatten_append {frames : List (List α)} (complete : ∀ f ∈ frames, F.Complete f)
    (rest : List α) :
    F.feed [] (frames.flatten ++ rest) =
      ((F.feed [] rest).1, frames ++ (F.feed [] rest).2) := by
  induction frames with
  | nil => simp
  | cons f fs ih =>
      have head := F.feed_frame (complete f (by simp))
      have tail := ih fun g member => complete g (by simp [member])
      rw [List.flatten_cons, List.append_assoc, feed_append, head, tail]
      simp

/-- Whole frames leave nothing behind. -/
theorem feed_flatten {frames : List (List α)} (complete : ∀ f ∈ frames, F.Complete f) :
    F.feed [] frames.flatten = ([], frames) := by
  simpa using F.feed_flatten_append complete []

/-- Part of a stream of whole frames leaves nothing held, or a proper beginning of one of them. -/
theorem held_of_flatten_eq {frames : List (List α)} (complete : ∀ f ∈ frames, F.Complete f)
    {xs ys : List α} (cut : frames.flatten = xs ++ ys) :
    (F.feed [] xs).1 = [] ∨
      ∃ f ∈ frames, ∃ n, n < f.length ∧ (F.feed [] xs).1 = f.take n := by
  induction frames generalizing xs with
  | nil =>
      have empty : xs = [] := (List.append_eq_nil_iff.mp cut.symm).1
      exact Or.inl (by simp [empty])
  | cons f fs ih =>
      rw [List.flatten_cons] at cut
      by_cases short : xs.length < f.length
      · have begins : xs = f.take xs.length := by
          have taken := congrArg (List.take xs.length) cut
          rw [List.take_append_of_le_length (Nat.le_of_lt short), List.take_left] at taken
          exact taken.symm
        refine Or.inr ⟨f, by simp, xs.length, short, ?_⟩
        rw [F.feed_of_partial, List.nil_append]
        · exact begins
        · intro n _ le
          rw [begins, List.nil_append, List.take_take]
          exact F.not_complete_take (complete f (by simp)) (by omega)
      · have begins : xs = f ++ xs.drop f.length := by
          have taken := congrArg (List.take f.length) cut
          rw [List.take_left, List.take_append_of_le_length (Nat.not_lt.mp short)] at taken
          conv_lhs => rw [← List.take_append_drop f.length xs, ← taken]
        have rest : fs.flatten = xs.drop f.length ++ ys := by
          rw [begins, List.append_assoc, List.append_cancel_left_eq] at cut
          exact cut
        have held : (F.feed [] xs).1 = (F.feed [] (xs.drop f.length)).1 := by
          conv_lhs => rw [begins, F.feed_append, F.feed_frame (complete f (by simp))]
        rw [held]
        rcases ih (fun g member => complete g (by simp [member])) rest with nothing | ⟨g, member, n⟩
        · exact Or.inl nothing
        · exact Or.inr ⟨g, by simp [member], n⟩

/-- What comes out are whole frames. -/
theorem feed_snd_complete (acc xs : List α) : ∀ frame ∈ (F.feed acc xs).2, F.Complete frame := by
  induction xs generalizing acc with
  | nil => exact fun frame member => absurd member List.not_mem_nil
  | cons a as ih =>
      by_cases complete : F.Complete (acc ++ [a])
      · rw [feed_cons_of_complete F as complete, List.forall_mem_cons]
        exact ⟨complete, ih []⟩
      · rw [feed_cons_of_not_complete F as complete]
        exact ih (acc ++ [a])

end FrameFormat

end GameServer.Lib
