import Indentation.Proofs.Course
import Indentation.Proofs.Shifted

/-! A pass line by line. Each line is set to the width that its course gives it; lines before it are
settled and lines after it untouched. A stage is the text written out half-way: the settled lines with
their new widths and the others as they were. Every stage is the text with lines moved sideways, and
the widths that its lines have are the table that the pass has reached. -/
namespace Indentation
open Lexer (feeds)

theorem Course.widthCongr {c : Course} {W W' : Widths} (own : Nat)
    (same : ∀ m inset step, c = .measured m inset step → W[m]? = W'[m]?) :
    c.width own W = c.width own W' := by
  cases c with
  | kept => rfl
  | flush => rfl
  | measured m inset step => rw [Course.width, Course.width, same m inset step rfl]

theorem Course.solutionUnique (courses : Nat → Course) {own own' : Nat → Nat} {W W' : Widths} {size : Nat}
    (earlier : ∀ n, n < size → ∀ m inset step, courses n = .measured m inset step → m < n)
    (kept : ∀ n, n < size → courses n = .kept → own n = own' n)
    (solves : ∀ n, n < size → (W[n]?).getD 0 = (courses n).width (own n) W)
    (solves' : ∀ n, n < size → (W'[n]?).getD 0 = (courses n).width (own' n) W') :
    ∀ n, n < size → (W[n]?).getD 0 = (W'[n]?).getD 0 := by
  intro n
  induction n using Nat.strongRecOn with
  | ind n ih =>
    intro bound
    rw [solves n bound, solves' n bound]
    cases found : courses n with
    | kept => exact kept n bound found
    | flush => rfl
    | measured m inset step =>
      have before := earlier n bound m inset step found
      rw [Course.width, Course.width, ih m before (by omega)]

theorem setSelf (W : Widths) (n : Nat) : W.setIfInBounds n ((W[n]?).getD 0) = W := by
  apply Array.ext_getElem?
  intro i
  rw [Array.getElem?_setIfInBounds]
  split
  · rename_i same
    subst same
    split
    · rename_i inside
      simp [inside]
    · rename_i outside
      simp [outside]
  · rfl

namespace Source
variable {t : Text} {settings : Settings} {strategy : Strategy} {k n : Nat}

def widthsTo (s : Source) (settings : Settings) (strategy : Strategy) (k : Nat) : Widths :=
  (s.passTo Rule.builtin settings strategy k).widths

theorem passLineWidths (bound : n ≤ feeds t) (pass : Pass) :
    ((ofText t).passLine Rule.builtin settings strategy pass n).widths =
      pass.widths.setIfInBounds n
        (((ofText t).course settings strategy n).width ((pass.widths[n]?).getD 0) pass.widths) := by
  cases free : (ofText t).isVerbatim n with
  | true => simp only [passLine, course, free, if_true, Course.width, setSelf]
  | false =>
    cases shown : ((ofText t).line n).isBlank with
    | true => simp [passLine, course, free, shown, Course.width]
    | false => simp [passLine, free, shown, placementWidth bound free shown]

theorem widthsToSucc (bound : k ≤ feeds t) :
    (ofText t).widthsTo settings strategy (k + 1) =
      ((ofText t).widthsTo settings strategy k).setIfInBounds k
        (((ofText t).course settings strategy k).width
          ((((ofText t).widthsTo settings strategy k)[k]?).getD 0)
          ((ofText t).widthsTo settings strategy k)) := by
  rw [widthsTo, passTo, List.range_succ, List.foldl_append, List.foldl_cons, List.foldl_nil,
    passLineWidths bound]
  rfl

theorem widthsToSize (bound : k ≤ feeds t + 1) :
    ((ofText t).widthsTo settings strategy k).size = feeds t + 1 := by
  induction k with
  | zero => simp [widthsTo, passTo, widths]
  | succ k ih => rw [widthsToSucc (by omega), Array.size_setIfInBounds, ih (by omega)]

theorem widthsToLater (bound : k ≤ feeds t + 1) (later : k ≤ n) :
    ((ofText t).widthsTo settings strategy k)[n]? = (ofText t).widths[n]? := by
  induction k with
  | zero => rfl
  | succ k ih =>
    rw [widthsToSucc (by omega), Array.getElem?_setIfInBounds_ne (by omega), ih (by omega) (by omega)]

theorem widthsToSettled (bound : k ≤ feeds t + 1) (before : n < k) :
    ((ofText t).widthsTo settings strategy k)[n]? =
      some (((ofText t).course settings strategy n).width (((ofText t).widths[n]?).getD 0)
        ((ofText t).widthsTo settings strategy k)) := by
  induction k with
  | zero => omega
  | succ k ih =>
    have size : ((ofText t).widthsTo settings strategy k).size = feeds t + 1 := widthsToSize (by omega)
    have same : ∀ m inset step, (ofText t).course settings strategy n = .measured m inset step →
        ((ofText t).widthsTo settings strategy k)[m]? =
          ((ofText t).widthsTo settings strategy (k + 1))[m]? := by
      intro m inset step found
      have earlier := courseEarlier (n := n) (by omega) found
      rw [widthsToSucc (by omega), Array.getElem?_setIfInBounds_ne (by omega)]
    rw [← Course.widthCongr _ same]
    rcases Nat.lt_or_eq_of_le (Nat.le_of_lt_succ before) with earlier | rfl
    · rw [widthsToSucc (by omega), Array.getElem?_setIfInBounds_ne (by omega), ih (by omega) earlier]
    · rw [widthsToSucc (by omega), Array.getElem?_setIfInBounds_self_of_lt (by omega),
        widthsToLater (by omega) (Nat.le_refl _)]

theorem renderLineEq (s : Source) (widths : Widths) (n : Nat) :
    s.renderLine widths n =
      if s.isVerbatim n then (s.line n).content
      else (s.line n).moved (if (s.line n).isBlank then 0 else (widths[n]?).getD 0) := by
  unfold renderLine
  cases shown : (s.line n).isBlank with
  | true => simp [shown, Line.blankRest shown, Line.moved]
  | false => simp [shown, Line.fromMarginOf shown, Line.moved]

def stageLine (s : Source) (settings : Settings) (strategy : Strategy) (k n : Nat) : Text :=
  if n < k then s.renderLine (s.widthsTo settings strategy k) n else (s.line n).content

def stage (s : Source) (settings : Settings) (strategy : Strategy) (k : Nat) : Text :=
  Text.unlines ((List.range s.lines.size).map (s.stageLine settings strategy k))

theorem stageLineCases (s : Source) (settings : Settings) (strategy : Strategy) (k n : Nat) :
    s.stageLine settings strategy k n = (s.line n).content ∧ (n < k → s.isVerbatim n = true) ∨
      n < k ∧ s.isVerbatim n = false ∧ s.stageLine settings strategy k n =
        (s.line n).moved (if (s.line n).isBlank then 0 else ((s.widthsTo settings strategy k)[n]?).getD 0) := by
  rw [stageLine, renderLineEq]
  by_cases before : n < k
  · cases free : s.isVerbatim n with
    | true => exact .inl (by simp)
    | false => exact .inr (by simp [before])
  · exact .inl (by simp [before])

theorem movedFeedless (bound : n ≤ feeds t) (w : Nat) : '\n' ∉ ((ofText t).line n).moved w := by
  intro member
  rcases List.mem_append.mp member with space | inside
  · simp at space
  · exact Line.contentFeedless (lineFound bound) ((Line.bodySublist _).subset inside)

theorem stageLineFeedless (bound : n ≤ feeds t) :
    '\n' ∉ (ofText t).stageLine settings strategy k n := by
  rcases (ofText t).stageLineCases settings strategy k n with ⟨same, _⟩ | ⟨_, _, moved⟩
  · rw [same]
    exact Line.contentFeedless (lineFound bound)
  · rw [moved]
    exact movedFeedless bound _

theorem stageLines (t : Text) (settings : Settings) (strategy : Strategy) (k : Nat) :
    Text.lines ((ofText t).stage settings strategy k) =
      (List.range (feeds t + 1)).map ((ofText t).stageLine settings strategy k) := by
  rw [stage, linesSize, Text.linesUnlines (by simp)]
  intro l member
  obtain ⟨n, inside, rfl⟩ := List.mem_map.mp member
  exact stageLineFeedless (Nat.le_of_lt_succ (List.mem_range.mp inside))

theorem stageFeeds (t : Text) (settings : Settings) (strategy : Strategy) (k : Nat) :
    feeds ((ofText t).stage settings strategy k) = feeds t := by
  have length := congrArg List.length (stageLines t settings strategy k)
  simpa [Text.linesLength] using length

theorem contentAt (bound : n ≤ feeds t) : (Text.lines t)[n]? = some ((ofText t).line n).content := by
  have found := lineFound bound
  have contents : ∀ p ls, (Line.placeFrom p ls).map Line.content = ls := by
    intro p ls
    induction ls generalizing p with
    | nil => rfl
    | cons l ls ih => rw [Line.placeFrom, List.map_cons, ih]
  rw [← contents 0 (Text.lines t), List.getElem?_map]
  exact congrArg _ found

theorem stageContent (bound : n ≤ feeds t) :
    ((ofText ((ofText t).stage settings strategy k)).line n).content =
      (ofText t).stageLine settings strategy k n := by
  have found := contentAt (t := (ofText t).stage settings strategy k) (n := n) (by rwa [stageFeeds])
  rw [stageLines, List.getElem?_map, List.getElem?_range (by omega)] at found
  exact (Option.some.inj found).symm

theorem stageShifted (t : Text) (settings : Settings) (strategy : Strategy) (k : Nat) :
    Shifted t ((ofText t).stage settings strategy k) where
  feeds := (stageFeeds t settings strategy k).symm
  body n bound := by
    have content : ((ofText ((ofText t).stage settings strategy k)).line n).content = _ := stageContent bound
    rcases (ofText t).stageLineCases settings strategy k n with ⟨same, _⟩ | ⟨_, _, moved⟩
    · rw [Line.body, Line.body, content, same]
    · rw [moved] at content
      exact (Line.movedBody content).symm
  strings n bound tok member string holds := by
    have content : ((ofText ((ofText t).stage settings strategy k)).line n).content = _ := stageContent bound
    rw [content]
    rcases (ofText t).stageLineCases settings strategy k n with ⟨same, _⟩ | ⟨_, free, moved⟩
    · exact same.symm
    · -- the line is not verbatim, so it is the empty line at the end of the text
      rcases stringFeed bound member string holds with verbatim | ends
      · rw [free] at verbatim
        contradiction
      · have empty := contentEnd bound ends
        have none : ((ofText t).line n).body = [] := by rw [Line.body, empty]; rfl
        have blank := (Line.isBlankIff _).mpr (.inl none)
        rw [moved, if_pos blank, Line.moved, none, empty]
        rfl

theorem widthAt (bound : n ≤ feeds t) : (ofText t).widths[n]? = some ((ofText t).line n).width := by
  have found : (ofText t).lines[n]? = some ((ofText t).line n) := by
    have line := lineFound bound
    simpa [ofText, ofTokens] using line
  rw [widths, Array.getElem?_map, found]
  rfl

theorem stageWidths (bound : k ≤ feeds t + 1) :
    (ofText ((ofText t).stage settings strategy k)).widths = (ofText t).widthsTo settings strategy k := by
  apply Array.ext_getElem?
  intro n
  by_cases inside : n ≤ feeds t
  · have content : ((ofText ((ofText t).stage settings strategy k)).line n).content = _ := stageContent inside
    rw [widthAt (by rwa [stageFeeds])]
    rcases (ofText t).stageLineCases settings strategy k n with ⟨same, verbatim⟩ | ⟨before, free, moved⟩
    · have old : ((ofText ((ofText t).stage settings strategy k)).line n).width =
          ((ofText t).line n).width := by
        rw [Line.width, Line.width, Line.lead, Line.lead, content, same]
      rw [old]
      by_cases before : n < k
      · rw [widthsToSettled bound before, widthAt inside, course, if_pos (verbatim before)]
        rfl
      · rw [widthsToLater bound (by omega), widthAt inside]
    · rw [moved] at content
      rw [Line.movedWidth content]
      cases shown : ((ofText t).line n).isBlank with
      | true =>
        simp [widthsToSettled bound before, course, free, shown, Course.width]
      | false =>
        rw [widthsToSettled bound before]
        rfl
  · have size : (ofText ((ofText t).stage settings strategy k)).widths.size = feeds t + 1 := by
      rw [widths, Array.size_map, linesSize, stageFeeds]
    rw [Array.getElem?_eq_none (by omega), Array.getElem?_eq_none (by rw [widthsToSize bound]; omega)]

theorem stageZero (t : Text) (settings : Settings) (strategy : Strategy) :
    (ofText t).stage settings strategy 0 = t := by
  have lines : (List.range (feeds t + 1)).map ((ofText t).stageLine settings strategy 0) = Text.lines t := by
    apply List.ext_getElem?
    intro n
    by_cases inside : n ≤ feeds t
    · rw [contentAt inside, List.getElem?_map, List.getElem?_range (by omega)]
      rfl
    · rw [List.getElem?_eq_none (by rw [List.length_map, List.length_range]; omega),
        List.getElem?_eq_none (by rw [Text.linesLength]; omega)]
  rw [stage, linesSize, lines, Text.unlinesLines]

theorem stageLast (t : Text) (settings : Settings) (strategy : Strategy) :
    (ofText t).stage settings strategy (feeds t + 1) =
      (ofText t).render ((ofText t).pass Rule.builtin settings strategy).widths := by
  rw [stage, render, pass, linesSize]
  refine congrArg _ (List.map_congr_left fun n inside => ?_)
  rw [stageLine, if_pos (List.mem_range.mp inside)]
  rfl

theorem widthsSolve (bound : n ≤ feeds t) :
    (((ofText t).widthsTo settings strategy (feeds t + 1))[n]?).getD 0 =
      ((ofText t).course settings strategy n).width ((ofText t).line n).width
        ((ofText t).widthsTo settings strategy (feeds t + 1)) := by
  rw [widthsToSettled (Nat.le_refl _) (by omega), widthAt bound, Option.getD_some, Option.getD_some]

theorem lastStageSolves (bound : n ≤ feeds t) :
    ((ofText ((ofText t).stage settings strategy (feeds t + 1))).line n).width =
      ((ofText t).course settings strategy n).width ((ofText t).line n).width
        (ofText ((ofText t).stage settings strategy (feeds t + 1))).widths := by
  have found : (ofText ((ofText t).stage settings strategy (feeds t + 1))).widths[n]? = _ :=
    widthAt (by rwa [stageFeeds])
  rw [stageWidths (Nat.le_refl _)] at found ⊢
  rw [← widthsSolve bound, found, Option.getD_some]

theorem widthsAlike {t' : Text} (h : Alike t t')
    (kept : ∀ n, n ≤ feeds t → (ofText t).course settings strategy n = .kept →
      ((ofText t).line n).width = ((ofText t').line n).width) (bound : n ≤ feeds t) :
    (((ofText t).widthsTo settings strategy (feeds t + 1))[n]?).getD 0 =
      (((ofText t').widthsTo settings strategy (feeds t' + 1))[n]?).getD 0 := by
  refine Course.solutionUnique ((ofText t).course settings strategy) ?_
    (fun n before => kept n (Nat.le_of_lt_succ before)) ?_ ?_ n (Nat.lt_succ_of_le bound)
  · exact fun n before m inset step => courseEarlier (Nat.le_of_lt_succ before)
  · exact fun n before => widthsSolve (Nat.le_of_lt_succ before)
  · intro n before
    rw [h.courseEq (Nat.le_of_lt_succ before)]
    exact widthsSolve (h.feeds ▸ Nat.le_of_lt_succ before)

theorem lastStageAlike {t' : Text} (h : Shifted t t')
    (kept : ∀ n, n ≤ feeds t → (ofText t).isVerbatim n = false →
      (ofText t).course settings strategy n = .kept →
      ((ofText t).line n).width = ((ofText t').line n).width) :
    (ofText t).stage settings strategy (feeds t + 1) =
      (ofText t').stage settings strategy (feeds t' + 1) := by
  have verbatim : ∀ n, n ≤ feeds t → (ofText t).isVerbatim n = true →
      ((ofText t).line n).content = ((ofText t').line n).content := by
    intro n bound within
    obtain ⟨tok, member, string, before, last⟩ := (verbatimIff bound).mp within
    have reach := tok.lastLineLe
    exact h.strings n bound tok member string ⟨before, by omega⟩
  have kept' : ∀ n, n ≤ feeds t → (ofText t).course settings strategy n = .kept →
      ((ofText t).line n).width = ((ofText t').line n).width := by
    intro n bound same
    cases free : (ofText t).isVerbatim n with
    | true => rw [Line.width, Line.width, Line.lead, Line.lead, verbatim n bound free]
    | false => exact kept n bound free same
  rw [stage, stage, linesSize, linesSize, ← h.feeds]
  refine congrArg _ (List.map_congr_left fun n inside => ?_)
  have before := List.mem_range.mp inside
  have bound := Nat.le_of_lt_succ before
  rw [stageLine, stageLine, if_pos before, if_pos before, renderLineEq, renderLineEq,
    ← h.alike.isVerbatim bound, ← h.isBlank bound, Line.moved, Line.moved, ← h.body n bound,
    widthsAlike h.alike kept' bound, h.feeds]
  cases free : (ofText t).isVerbatim n with
  | true => simpa using verbatim n bound free
  | false => rfl

end Source
end Indentation
