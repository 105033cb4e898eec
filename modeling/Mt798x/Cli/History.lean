import Mt798x.Lib.Runs

/-!
# The history of the shell

The cursor keys of `cli` walk over the lines that have been entered.  A line that is changed on the
way is kept in a copy of the history, which is made when it is first needed, and in `cur_line`.  For
the user there are drafts, one for the new line and one for each line entered, and a place among
them.
-/

namespace Cli.History

open Runs

/-- The variables of the history, and the line in the editor. -/
structure Shell where
  history : List String := []
  history_edit : Option (List String) := none
  history_idx : ℤ := -1
  cur_line : Option String := none
  line : String := ""

/-- `line_history_reset` -/
def lineHistoryReset (s : Shell) : Shell :=
  { s with history_idx := -1, history_edit := none, cur_line := none }

/-- The line in the editor is put where `line_history` keeps it. -/
def keep (s : Shell) : Shell :=
  let cur_history := s.history_edit.getD s.history
  if s.history_idx = -1 then { s with cur_line := some s.line }
  else if cur_history[s.history_idx.toNat]? ≠ some s.line then
    { s with history_edit := some (cur_history.set s.history_idx.toNat s.line) }
  else s

/-- `line_history` -/
def lineHistory (s : Shell) (dir : ℤ) : Shell :=
  let min_idx := if s.cur_line = none then 0 else -1
  let new_idx := s.history_idx + dir
  if new_idx < min_idx ∨ new_idx ≥ s.history.length then s
  else
    { keep s with
      history_idx := new_idx
      line :=
        if new_idx < 0 then (keep s).cur_line.getD ""
        else ((keep s).history_edit.getD (keep s).history).getD new_idx.toNat "" }

/-- What happens to the line in the editor; `enter` is `line_cb`, behind which the line is empty. -/
inductive Event where
  | typed (line : String)
  | up
  | down
  | enter

def Shell.step (s : Shell) : Event → Shell
  | .typed line => { s with line }
  | .up => lineHistory s 1
  | .down => lineHistory s (-1)
  | .enter => { lineHistoryReset s with history := s.line :: s.history, line := "" }

/-- The lines that have been entered, the last one first, the drafts and the place among them. -/
structure Drafts where
  entered : List String := []
  drafts : List String := [""]
  place : ℕ := 0

def Drafts.step (a : Drafts) : Event → Drafts
  | .typed line => { a with drafts := a.drafts.set a.place line }
  | .up => { a with place := min (a.place + 1) a.entered.length }
  | .down => { a with place := a.place - 1 }
  | .enter =>
    let entered := a.drafts.getD a.place "" :: a.entered
    { entered, drafts := "" :: entered }

/-- The drafts are in the variables, but for the one in the editor. -/
structure Sim (s : Shell) (a : Drafts) : Prop where
  entered : a.entered = s.history
  place : s.history_idx = a.place - 1
  drafts : a.drafts = (s.cur_line.getD "" :: s.history_edit.getD s.history).set a.place s.line
  length : (s.history_edit.getD s.history).length = s.history.length
  le : a.place ≤ s.history.length
  -- the new line has been left for another one
  left : 0 < a.place → s.cur_line.isSome

variable {s : Shell} {a : Drafts}

lemma Sim.getElem? (h : Sim s a) : a.drafts[a.place]? = some s.line := by
  have hlen := h.length
  have hle := h.le
  rw [h.drafts, List.getElem?_set_self (by rw [List.length_cons]; omega)]

lemma Sim.keep (h : Sim s a) :
    (keep s).cur_line.getD "" :: (keep s).history_edit.getD (keep s).history = a.drafts ∧
      (keep s).history = s.history ∧ (keep s).cur_line.isSome := by
  obtain ⟨-, hidx, hdrafts, hlen, hle, hleft⟩ := h
  rw [hdrafts, History.keep]
  cases hplace : a.place with
  | zero =>
    rw [if_pos (by omega)]
    exact ⟨rfl, rfl, rfl⟩
  | succ n =>
    have hn : s.history_idx.toNat = n := by omega
    rw [if_neg (by omega), hn]
    split_ifs with hchanged
    · exact ⟨rfl, rfl, hleft (by omega)⟩
    · -- the line is the one that is kept already
      obtain ⟨hlt, hline⟩ := List.getElem?_eq_some_iff.mp (not_not.mp hchanged)
      refine ⟨?_, rfl, hleft (by omega)⟩
      rw [List.set_cons_succ, ← hline, List.set_getElem_self]

/-- A move to a place that there is. -/
lemma Sim.move (h : Sim s a) {dir : ℤ} {place : ℕ} (hplace : (place : ℤ) = a.place + dir)
    (hle : place ≤ s.history.length) (hdir : a.place = 0 → 0 < place) :
    Sim (lineHistory s dir) { a with place } := by
  obtain ⟨hkeep, hhistory, hcur⟩ := h.keep
  have hlen : a.drafts.length = s.history.length + 1 := by
    rw [h.drafts, List.length_set, List.length_cons, h.length]
  have hidx := h.place
  have hgo : ¬ (s.history_idx + dir < (if s.cur_line = none then 0 else -1) ∨
      s.history_idx + dir ≥ s.history.length) := by
    split_ifs with hnone
    · have hzero : ¬ 0 < a.place := fun hpos => by simpa [hnone] using h.left hpos
      have := hdir (by omega)
      omega
    · omega
  have hmove : lineHistory s dir = { History.keep s with
      history_idx := s.history_idx + dir, line := a.drafts.getD place "" } := by
    rw [lineHistory]
    dsimp only
    rw [if_neg hgo, ← hkeep]
    congr 1
    cases place with
    | zero => rw [if_pos (by omega), List.getD_cons_zero]
    | succ n =>
      have hn : (s.history_idx + dir).toNat = n := by omega
      rw [if_neg (by omega), hn, List.getD_cons_succ]
  have hset : a.drafts.set place (a.drafts.getD place "") = a.drafts := by
    rw [List.getD_eq_getElem _ _ (by omega), List.set_getElem_self]
  have hcount := congrArg List.length hkeep
  rw [List.length_cons] at hcount
  rw [hmove]
  exact
    { entered := h.entered.trans hhistory.symm
      place := by dsimp only; omega
      drafts := by dsimp only; rw [hkeep, hset]
      length := by rw [hhistory] at hcount ⊢; dsimp only; omega
      le := by rw [hhistory]; exact hle
      left := fun _ => hcur }

lemma Sim.step (h : Sim s a) (e : Event) : Sim (s.step e) (a.step e) := by
  have hentered := congrArg List.length h.entered
  have hidx := h.place
  have hle := h.le
  cases e with
  | typed line =>
    exact { h with drafts := by rw [Drafts.step, h.drafts, List.set_set]; rfl }
  | up =>
    by_cases hend : a.place = s.history.length
    · have hstay : lineHistory s 1 = s := if_pos (.inr (by omega))
      have hplace : min (a.place + 1) a.entered.length = a.place := by omega
      rw [Shell.step, hstay, Drafts.step, hplace]
      exact h
    · have hplace : min (a.place + 1) a.entered.length = a.place + 1 := by omega
      rw [Drafts.step, hplace]
      exact h.move (by omega) (by omega) (by omega)
  | down =>
    by_cases hstart : a.place = 0
    · have hstay : lineHistory s (-1) = s := if_pos (.inl (by split_ifs <;> omega))
      have hplace : a.place - 1 = a.place := by omega
      rw [Shell.step, hstay, Drafts.step, hplace]
      exact h
    · exact h.move (by omega) (by omega) (by omega)
  | enter =>
    have heq : a.step .enter =
        { entered := s.line :: s.history, drafts := "" :: s.line :: s.history } := by
      rw [Drafts.step, List.getD_eq_getElem?_getD, h.getElem?, h.entered]
      rfl
    rw [heq]
    exact ⟨rfl, rfl, rfl, rfl, Nat.zero_le _, fun h => absurd h (lt_irrefl 0)⟩

/-- The editor holds the draft at the place, and the history is what has been entered. -/
theorem line_history_drafts (es : List Event) :
    (run Shell.step {} es).history = (run Drafts.step {} es).entered ∧
      (run Drafts.step {} es).drafts[(run Drafts.step {} es).place]? =
        some (run Shell.step {} es).line := by
  have hrun : ∀ es s a, Sim s a → Sim (run Shell.step s es) (run Drafts.step a es) := by
    intro es
    induction es with
    | nil => exact fun _ _ h => h
    | cons e es ih => exact fun s a h => ih _ _ (h.step e)
  have h := hrun es {} {} ⟨rfl, rfl, rfl, rfl, le_rfl, fun h => absurd h (lt_irrefl 0)⟩
  exact ⟨h.entered.symm, h.getElem?⟩

end Cli.History
