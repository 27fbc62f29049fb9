import Indentation.Proofs.Checked.Walk
import Indentation.Statement

/-! Statements with each step checked: the tests for run-on lines, the way back to the first line of a
statement, and its anchor. The test of a word may ask for the test of one more word, and that is all. -/
namespace Indentation.Checked

def blankBetween (o : Outline) (before after : Nat) : Checked Bool :=
  (List.range' (before + 1) (after - (before + 1))).anyM (read o.blanks)

def inGroup (o : Outline) (i : Nat) : Checked Bool := do
  match ← enclosing o i with
  | none => return false
  | some b =>
    let w ← word o b
    return w.kind == .opening .paren || w.kind == .opening .square

def isBlockArrow (o : Outline) (arrow : Nat) : Checked Bool := do
  let _ ← word o arrow
  match ← enclosing o arrow with
  | none => return false
  | some b =>
    if o.opens b .brace then
      return (← forward o (b + 1) arrow).all fun j =>
        !(o.isKeyword j .case_ || o.isMark j .arrow || o.isMark j .equals)
    else return false

def bodyIntro (o : Outline) : Nat → Checked (Option Nat)
  | 0 => return none
  | p + 1 => do
    match o.kind? p with
    | some (.mark .equals) => return some p
    | some (.mark .arrow) => return if ← isBlockArrow o p then none else some p
    | some (.closing .paren) =>
      match ← opener o p with
      | some ⟨j + 1, _⟩ => return if o.isKeyword j .if_ then some j else none
      | _ => return none
    | _ => return none

def continues (o : Outline) (groups : Checked Bool) (s : Strategy) (i : Nat) (previous here : Word) :
    Checked Bool := do
  if here.kind.isClosing then return false
  else if ← blankBetween o previous.lastLine here.line then return false
  else if previous.kind.endsStatement then return false
  else if ← (if s = .keywordsOnly then return false else inGroup o i) then return true
  else if here.kind.startsStatement then return false
  else if (← bodyIntro o i).isSome then return false
  else if s = .eager then return true
  else if here.kind.continuesStatement then return true
  else if previous.kind.needsContinuation then return true
  else if here.kind = .opening .square then return true
  else if ← (if here.kind = .opening .paren then groups else return false) then return true
  else if s = .keywordsOnly then return false
  else if here.kind = .mark .dot || previous.kind = .mark .dot then return true
  else if s = .reluctant then return false
  else return here.kind = .operator || previous.kind = .operator

def groupsContinue (o : Outline) (next : Nat → Checked Bool) (i : Nat) : Checked Bool := do
  match ← afterGroups o i with
  | none => return false
  | some a =>
    if a < o.size then
      if o.isMark a .equals || o.opens a .brace then return true else next a
    else return false

/- The test of word `i`, which may ask for itself a number of times. -/
def isRunOn (o : Outline) (s : Strategy) : Nat → Nat → Checked Bool
  | 0, _ => .error .recursion
  | depth + 1, i => do
    let here ← word o i
    match i with
    | 0 => return false
    | p + 1 =>
      let previous ← word o p
      continues o (groupsContinue o (isRunOn o s depth) (p + 1)) s (p + 1) previous here

def runOnStart (o : Outline) (s : Strategy) (i : Nat) : Checked Nat := do
  if ← isRunOn o s 2 i then
    match ← before o i with
    | none => return i
    | some ⟨e, _⟩ =>
      let ⟨h, _⟩ ← lineHeadBefore o e
      runOnStart o s h
  else return i
termination_by i
decreasing_by omega

def alignedAnchor (o : Outline) (settings : Settings) (i : Nat) : Checked Anchor := do
  let ⟨head, _⟩ ← lineHeadBefore o i
  let w ← word o i
  return if head ≠ i || !settings.alignParameters then .margin w.line else .word i

def statementAnchor (o : Outline) (settings : Settings) (i : Nat) : Checked Anchor := do
  let start ← expressionStart o i
  let ⟨head, _⟩ ← lineHeadBefore o (start.getD i)
  alignedAnchor o settings (← runOnStart o .keywordsOnly head)

def valueLead (o : Outline) (settings : Settings) (begin_ end_ : Nat) : Checked Shift := do
  if settings.leadValues then
    match (← forward o begin_ end_).dropWhile fun j => !o.isMark j .equals with
    | _ :: _ :: _ => return .level
    | _ => return .none
  else return .none

variable {o : Outline} {i : Nat}

theorem anyOk {α : Type} {l : List α} {p : α → Checked Bool} {q : α → Bool}
    (each : ∀ x ∈ l, p x = .ok (q x)) : l.anyM p = .ok (l.any q) := by
  induction l with
  | nil => rfl
  | cons x l ih =>
    have rest := ih fun y member => each y (List.mem_cons_of_mem _ member)
    rw [List.anyM, each x List.mem_cons_self, okBind, List.any_cons]
    cases q x with
    | true => rfl
    | false => exact rest

theorem blankBetweenOk {before after : Nat} (inside : after ≤ o.blanks.size) :
    blankBetween o before after = .ok (o.blankBetween before after) := by
  apply anyOk
  intro l member
  have range := List.mem_range'_1.mp member
  obtain ⟨blank, found, reads⟩ := readInside (i := l) (Nat.lt_of_lt_of_le (by omega) inside)
  rw [reads, found]
  rfl

theorem inGroupOk (fit : Fit o) (inside : i < o.size) : inGroup o i = .ok (o.inGroup i) := by
  rw [inGroup, enclosingOk fit (Nat.le_of_lt inside), okBind, Outline.inGroup]
  cases encloses : o.enclosing? i with
  | none => rfl
  | some b =>
    obtain ⟨w, found, reads⟩ := wordOf (fit.enclosingLt (Nat.le_of_lt inside) encloses)
    simp [reads, okBind, pureOk, Outline.opens, Outline.kind?, found]

theorem isBlockArrowOk (fit : Fit o) (inside : i < o.size) :
    isBlockArrow o i = .ok (o.isBlockArrow i) := by
  obtain ⟨w, _, reads⟩ := wordOf inside
  rw [isBlockArrow, reads, okBind, enclosingOk fit (Nat.le_of_lt inside), okBind, Outline.isBlockArrow]
  cases o.enclosing? i with
  | none => rfl
  | some b =>
    simp only [forwardOk, okBind, pureOk]
    cases o.opens b .brace <;> rfl

theorem bodyIntroOk (fit : Fit o) {g : Nat} (inside : g ≤ o.size) :
    bodyIntro o g = .ok (o.bodyIntro? g) := by
  cases g with
  | zero => rfl
  | succ p =>
    rw [bodyIntro, Outline.bodyIntro?, isBlockArrowOk fit inside, openerOk inside, okBind, okBind]
    cases o.kind? p with
    | none => rfl
    | some k =>
      cases k with
      | mark m => cases m <;> rfl
      | closing b =>
        cases b with
        | paren =>
          cases o.opener? p with
          | none => rfl
          | some found =>
            obtain ⟨j, below⟩ := found
            cases j <;> rfl
        | square => rfl
        | brace => rfl
      | _ => rfl

theorem continuesOk (fit : Fit o) {groups : Checked Bool} {answer : Bool} {s : Strategy} {previous here : Word}
    (inside : i < o.size) (found : o.words[i]? = some here)
    (asked : here.kind = .opening .paren → groups = .ok answer) :
    continues o groups s i previous here = .ok (o.continues answer s i previous here) := by
  have lines := fit.lines i here found
  have curried : (if here.kind = .opening .paren then groups else return false) =
      .ok (here.kind = .opening .paren && answer) := by
    split
    · rename_i paren
      simp [asked paren, paren]
    · rename_i other
      simp [other, pureOk]
  have grouped : (if s = .keywordsOnly then return false else inGroup o i) =
      .ok (s ≠ .keywordsOnly && o.inGroup i) := by
    rw [inGroupOk fit inside]
    cases s <;> rfl
  rw [continues, Outline.continues, blankBetweenOk (Nat.le_of_lt lines), grouped,
    bodyIntroOk fit (Nat.le_of_lt inside), curried, okBind, okBind, okBind, okBind]
  simp only [apply_ite Except.ok, pureOk]

variable {s : Strategy}

theorem isRunOnPast (past : o.size ≤ i) : o.isRunOn s i = false := by
  have none : o.words[i]? = .none := Array.getElem?_eq_none past
  cases i with
  | zero => rfl
  | succ p =>
    rw [Outline.isRunOn, Outline.continuesAt, none]
    cases o.words[p]? <;> rfl

theorem groupsContinueOk {next : Nat → Checked Bool}
    (asked : ∀ a, a < o.size → o.afterGroups? i = some a → next a = .ok (o.isRunOn s a)) :
    groupsContinue o next i = .ok (o.groupsContinue s i) := by
  rw [groupsContinue, afterGroupsOk, okBind]
  cases after : o.afterGroups? i with
  | none => simp [Outline.groupsContinue, after, pureOk]
  | some a =>
    rw [Outline.groupsContinueEq s after]
    by_cases inside : a < o.size
    · simp only [if_pos inside, asked a inside after]
      cases o.isMark a .equals || o.opens a .brace <;> rfl
    · have none : o.words[a]? = .none := Array.getElem?_eq_none (Nat.le_of_not_lt inside)
      simp [inside, Outline.isMark, Outline.opens, Outline.kind?, none, isRunOnPast (Nat.le_of_not_lt inside), pureOk]

theorem isRunOnStep (fit : Fit o) (inside : i < o.size) {depth : Nat} {answer : Bool}
    (asked : o.opens i .paren = true → groupsContinue o (isRunOn o s depth) i = .ok answer) :
    isRunOn o s (depth + 1) i = .ok (o.continuesAt answer s i) := by
  obtain ⟨here, found, reads⟩ := wordOf inside
  rw [isRunOn, reads, okBind]
  cases i with
  | zero => rfl
  | succ p =>
    obtain ⟨previous, found', reads'⟩ := wordOf (o := o) (i := p) (by omega)
    rw [Outline.continuesAt, found, found']
    simp only [reads', okBind]
    refine continuesOk fit inside found fun paren => asked ?_
    simp [Outline.opens, Outline.kind?, found, paren]

theorem isRunOnPlain (fit : Fit o) (inside : i < o.size) (plain : o.opens i .paren = false) (depth : Nat) :
    isRunOn o s (depth + 1) i = .ok (o.isRunOn s i) :=
  isRunOnStep fit inside fun paren => by
    rw [plain] at paren
    contradiction

theorem isRunOnOk (fit : Fit o) (inside : i < o.size) : isRunOn o s 2 i = .ok (o.isRunOn s i) :=
  isRunOnStep fit inside fun _ => groupsContinueOk fun _ within after =>
    isRunOnPlain fit within (Outline.afterGroupsSpec after).2.1 0

theorem runOnStartOk (fit : Fit o) (inside : i < o.size) : runOnStart o s i = .ok (o.runOnStart s i) := by
  induction i using Nat.strongRecOn with
  | ind i ih =>
    rw [runOnStart, Outline.runOnStart, isRunOnOk fit inside, okBind, beforeOk (Nat.le_of_lt inside), okBind]
    cases o.isRunOn s i with
    | false => rfl
    | true =>
      cases o.before? i with
      | none => rfl
      | some found =>
        obtain ⟨e, below⟩ := found
        have head := o.lineHeadBeforeLe e
        simp only [lineHeadBeforeOk (Nat.lt_trans below inside), okBind]
        exact ih _ (by omega) (by omega)

theorem alignedAnchorOk (settings : Settings) (inside : i < o.size) :
    alignedAnchor o settings i = .ok (o.alignedAnchor settings i) := by
  obtain ⟨w, found, reads⟩ := wordOf inside
  rw [alignedAnchor, lineHeadBeforeOk inside, okBind, reads, Outline.alignedAnchor, Outline.lineOf, found]
  rfl

theorem statementAnchorOk (fit : Fit o) (settings : Settings) (inside : i < o.size) :
    statementAnchor o settings i = .ok (o.statementAnchor settings i) := by
  have start := o.expressionStartLe i
  have head := o.lineHeadBeforeLe ((o.expressionStart? i).getD i)
  have first := o.runOnStartLe .keywordsOnly (o.lineHeadBefore ((o.expressionStart? i).getD i))
  rw [statementAnchor, expressionStartOk inside, okBind, lineHeadBeforeOk (by omega), okBind]
  simp only [runOnStartOk fit (s := .keywordsOnly) (Nat.lt_of_le_of_lt head (by omega)), okBind]
  exact alignedAnchorOk settings (by omega)

theorem valueLeadOk (o : Outline) (settings : Settings) (begin_ end_ : Nat) :
    valueLead o settings begin_ end_ = .ok (o.valueLead settings begin_ end_) := by
  rw [valueLead, Outline.valueLead, forwardOk, okBind]
  cases settings.leadValues with
  | false => rfl
  | true =>
    generalize (o.forward begin_ end_).dropWhile (fun j => !o.isMark j .equals) = found
    cases found with
    | nil => rfl
    | cons _ rest => cases rest <;> rfl

end Indentation.Checked
