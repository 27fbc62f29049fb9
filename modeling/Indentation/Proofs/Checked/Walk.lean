import Indentation.Proofs.RunOns
import Indentation.Proofs.Anchors

/-! Walks that check each step. The definitions for all outlines give a default where a table has no
entry; here a read without an entry stops, and so does a test that asks for itself again too often.
On an outline made from words the checked walks never stop and give what the plain ones give. -/
namespace Indentation

inductive Failure where
  | outOfRange
  | recursion
  | anchor
  deriving DecidableEq, Repr

abbrev Checked := Except Failure

namespace Checked

theorem okBind {α β : Type} (a : α) (f : α → Checked β) : (Except.ok a >>= f) = f a := rfl

theorem pureOk {α : Type} (a : α) : (pure a : Checked α) = .ok a := rfl

def read {α : Type} (table : Array α) (i : Nat) : Checked α :=
  match table[i]? with
  | some x => .ok x
  | none => .error .outOfRange

theorem readOf {α : Type} {table : Array α} {i : Nat} {x : α} (found : table[i]? = some x) :
    read table i = .ok x := by
  simp [read, found]

theorem readInside {α : Type} {table : Array α} {i : Nat} (inside : i < table.size) :
    ∃ x, table[i]? = some x ∧ read table i = .ok x := by
  obtain ⟨x, found⟩ : ∃ x, table[i]? = some x := ⟨_, Array.getElem?_eq_getElem inside⟩
  exact ⟨x, found, readOf found⟩

def word (o : Outline) (i : Nat) : Checked Word := read o.words i

def enclosing (o : Outline) (g : Nat) : Checked (Option Nat) := do
  return (← read o.nest g).head?

def opener (o : Outline) (i : Nat) : Checked (Option {s : Nat // s < i}) := do
  let _ ← word o i
  return o.opener? i

def closer (o : Outline) (i : Nat) : Checked (Option {c : Nat // i < c}) := do
  let _ ← word o i
  return o.closer? i

def isLineHead (o : Outline) : Nat → Checked Bool
  | 0 => return true
  | j + 1 => do
    let previous ← word o j
    let here ← word o (j + 1)
    return previous.lastLine < here.line

def expressionStart (o : Outline) (i : Nat) : Checked (Option Nat) := do
  if (← word o i).kind.isClosing then return (← opener o i).map (·.1) else return some i

def before (o : Outline) : (i : Nat) → Checked (Option {s : Nat // s < i})
  | 0 => return none
  | j + 1 => do
    let w ← word o j
    if w.kind.isOpening then return none
    else if w.kind.isClosing then
      match ← opener o j with
      | none => return none
      | some ⟨s, below⟩ => return some ⟨s, Nat.lt_succ_of_lt below⟩
    else return some ⟨j, Nat.lt_succ_self j⟩

def lineHeadBefore (o : Outline) (i : Nat) : Checked {h : Nat // h ≤ i} := do
  if ← isLineHead o i then return ⟨i, Nat.le_refl i⟩
  else match ← before o i with
    | none => return ⟨i, Nat.le_refl i⟩
    | some ⟨s, below⟩ =>
      let ⟨h, le⟩ ← lineHeadBefore o s
      return ⟨h, Nat.le_trans le (Nat.le_of_lt below)⟩
termination_by i

def backward (o : Outline) (i : Nat) : Checked (List Nat) := do
  match ← before o i with
  | none => return []
  | some ⟨s, _⟩ => return s :: (← backward o s)
termination_by i

def forward (o : Outline) (i stop : Nat) : Checked (List Nat) := do
  if _ : i < stop ∧ i < o.size then
    let w ← word o i
    if w.kind.isClosing then return []
    else if w.kind.isOpening then
      match ← closer o i with
      | none => return [i]
      | some ⟨c, _⟩ => return i :: (← forward o (c + 1) stop)
    else return i :: (← forward o (i + 1) stop)
  else return []
termination_by stop - i

def afterGroups (o : Outline) (i : Nat) : Checked (Option Nat) := do
  if _ : i < o.size ∧ (o.opens i .paren || o.opens i .square) then
    match ← closer o i with
    | none => return none
    | some ⟨c, _⟩ => afterGroups o (c + 1)
  else return some i
termination_by o.size - i

variable {o : Outline} {i : Nat}

theorem wordOf (inside : i < o.size) : ∃ w, o.words[i]? = some w ∧ word o i = .ok w := readInside inside

theorem isClosingOf {w : Word} (found : o.words[i]? = some w) : o.isClosing i = w.kind.isClosing := by
  simp [Outline.isClosing, Outline.kind?, found]

theorem isOpeningOf {w : Word} (found : o.words[i]? = some w) : o.isOpening i = w.kind.isOpening := by
  simp [Outline.isOpening, Outline.kind?, found]

theorem openerOk (inside : i < o.size) : opener o i = .ok (o.opener? i) := by
  obtain ⟨w, _, reads⟩ := wordOf inside
  rw [opener, reads]
  rfl

theorem closerOk (inside : i < o.size) : closer o i = .ok (o.closer? i) := by
  obtain ⟨w, _, reads⟩ := wordOf inside
  rw [closer, reads]
  rfl

theorem isLineHeadOk (inside : i < o.size) : isLineHead o i = .ok (o.isLineHead i) := by
  cases i with
  | zero => rfl
  | succ j =>
    obtain ⟨previous, found, reads⟩ := wordOf (o := o) (i := j) (by omega)
    obtain ⟨here, found', reads'⟩ := wordOf inside
    rw [isLineHead, reads, okBind, reads', okBind, Outline.isLineHead, found, found']
    rfl

theorem expressionStartOk (inside : i < o.size) : expressionStart o i = .ok (o.expressionStart? i) := by
  obtain ⟨w, found, reads⟩ := wordOf inside
  rw [expressionStart, reads, okBind, openerOk inside, okBind, Outline.expressionStart?, isClosingOf found]
  split <;> rfl

theorem beforeOk (inside : i ≤ o.size) : before o i = .ok (o.before? i) := by
  cases i with
  | zero => rfl
  | succ j =>
    obtain ⟨w, found, reads⟩ := wordOf (o := o) (i := j) (by omega)
    rw [before, reads, okBind, openerOk (by omega), okBind, Outline.before?, isOpeningOf found, isClosingOf found]
    split
    · rfl
    · split
      · cases o.opener? j <;> rfl
      · rfl

theorem lineHeadBeforeOk (inside : i < o.size) :
    lineHeadBefore o i = .ok ⟨o.lineHeadBefore i, o.lineHeadBeforeLe i⟩ := by
  induction i using Nat.strongRecOn with
  | ind i ih =>
    rw [lineHeadBefore, isLineHeadOk inside, okBind]
    cases head : o.isLineHead i with
    | true =>
      have here : o.lineHeadBefore i = i := by rw [Outline.lineHeadBefore, if_pos head]
      exact congrArg Except.ok (Subtype.ext here.symm)
    | false =>
      rw [if_neg Bool.false_ne_true, beforeOk (Nat.le_of_lt inside), okBind]
      cases step : o.before? i with
      | none =>
        have here : o.lineHeadBefore i = i := by rw [Outline.lineHeadBefore]; simp [head, step]
        exact congrArg Except.ok (Subtype.ext here.symm)
      | some found =>
        obtain ⟨s, below⟩ := found
        have later : o.lineHeadBefore i = o.lineHeadBefore s := by
          rw [Outline.lineHeadBefore]; simp [head, step]
        simp only [ih s below (by omega), okBind]
        exact congrArg Except.ok (Subtype.ext later.symm)

theorem backwardOk (inside : i ≤ o.size) : backward o i = .ok (o.backward i) := by
  induction i using Nat.strongRecOn with
  | ind i ih =>
    rw [backward, Outline.backward, beforeOk inside, okBind]
    cases o.before? i with
    | none => rfl
    | some found =>
      obtain ⟨s, below⟩ := found
      simp only [ih s below (by omega), okBind, pureOk]

theorem forwardOk (o : Outline) (i stop : Nat) : forward o i stop = .ok (o.forward i stop) := by
  fun_induction Outline.forward o i stop with
  | case1 i both closing =>
    obtain ⟨w, found, reads⟩ := wordOf both.2
    rw [isClosingOf found] at closing
    rw [forward, dif_pos both, reads, okBind, if_pos closing]
    rfl
  | case2 i both other ih =>
    obtain ⟨w, found, reads⟩ := wordOf both.2
    rw [isClosingOf found] at other
    rw [forward, dif_pos both, reads, okBind, if_neg other, closerOk both.2, okBind, Outline.after?,
      isOpeningOf found]
    cases w.kind.isOpening with
    | false =>
      simp only [Bool.false_eq_true, if_false, ih _ (Nat.lt_succ_self i), okBind, pureOk]
    | true =>
      cases o.closer? i with
      | none => rfl
      | some close =>
        obtain ⟨c, later⟩ := close
        simp only [if_true, Option.map_some, ih _ (Nat.lt_succ_of_lt later), okBind, pureOk]
  | case3 i past =>
    rw [forward, dif_neg past]
    rfl

theorem afterGroupsOk (o : Outline) (i : Nat) : afterGroups o i = .ok (o.afterGroups? i) := by
  fun_induction Outline.afterGroups? o i with
  | case1 i group open_ =>
    rw [afterGroups, dif_pos group, closerOk group.1, okBind, open_]
    rfl
  | case2 i group c later closes ih =>
    rw [afterGroups, dif_pos group, closerOk group.1, okBind, closes]
    exact ih
  | case3 i none =>
    rw [afterGroups, dif_neg none]
    rfl

structure Fit (o : Outline) : Prop where
  nest : o.nest.size = o.size + 1
  nested : o.Nested
  lines : ∀ (i : Nat) (w : Word), o.words[i]? = some w → w.line < o.blanks.size

theorem Fit.enclosingLt (fit : Fit o) {g b : Nat} (inside : g ≤ o.size) (encloses : o.enclosing? g = some b) :
    b < o.size :=
  Nat.lt_of_lt_of_le (fit.nested g b encloses).1 inside

theorem enclosingOk (fit : Fit o) {g : Nat} (inside : g ≤ o.size) :
    enclosing o g = .ok (o.enclosing? g) := by
  obtain ⟨stack, found, reads⟩ := readInside (show g < o.nest.size by rw [fit.nest]; omega)
  rw [enclosing, reads, okBind, Outline.enclosing?, Outline.openAt, found]
  rfl

end Checked
end Indentation
