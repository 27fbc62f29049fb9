import Indentation.Source
import Indentation.Statement

/-! The rules of indentation. Each recognises one construct: it gives the anchor to measure from and
the step to add, or nothing, and then the next rule is asked. In the chain a rule looks at the start of
a line and answers with an offset; the built-in ones read only the outline, under the settings and the
strategy in force. -/
namespace Indentation

structure Gap where
  rank : Nat
  onWord : Bool
  atEnd : Bool
  deriving DecidableEq, Repr

def Gap.word? (g : Gap) : Option Nat := if g.onWord then some g.rank else none

structure Reading where
  outline : Outline
  settings : Settings
  strategy : Strategy

namespace Reading

def listAnchor? (r : Reading) (opener : Nat) : Option Anchor :=
  if !r.settings.alignParameters then some (.margin (r.outline.lineOf opener))
  else if opener + 1 < r.outline.size && !r.outline.isClosing (opener + 1) then
    some (.word (opener + 1))
  else none

def inCaseBody (r : Reading) (opener : Nat) (g : Gap) : Bool :=
  r.outline.opens opener .brace &&
    (r.outline.forward (opener + 1) g.rank).any fun j => r.outline.isCaseClause j

/-- The step of a line in a block, measured from an anchor with the given rank. A closing bracket
gets none, a line in the body of a clause two; at the very end of the text one column is added. -/
def blockStep (r : Reading) (g : Gap) (anchorRank : Nat) : Shift :=
  let o := r.outline
  let step := r.settings.step
  let opener := o.enclosing? g.rank
  let lead := o.valueLead r.settings anchorRank (opener.getD g.rank)
  let extra := lead.size r.settings
  if g.atEnd then .columns (step + 1 + extra)
  else if g.word?.any o.isClosing then lead
  else if g.word?.any o.isCaseClause then .columns (step + extra)
  else if opener.any fun b => r.inCaseBody b g then .columns (2 * step + extra)
  else .columns (step + extra)

def listStep (r : Reading) (g : Gap) (anchor : Anchor) : Shift :=
  if r.settings.alignParameters then .none else r.blockStep g (r.outline.rankOf anchor)

abbrev Found := Option (Anchor × Shift)

def curriedGroup? (r : Reading) (p : Nat) : Option Nat :=
  let o := r.outline
  if (o.opens (p + 1) .paren || o.opens (p + 1) .square) && r.settings.alignParameters &&
      o.isRunOn r.strategy (p + 1) then
    (o.opener? p).map (·.1)
  else none

def definedKind? (r : Reading) (i : Nat) : Option Kind :=
  ((r.outline.words.toList.drop i).find? fun w => !w.kind.isModifier).map Word.kind

def openBracket (r : Reading) (g : Gap) : Found :=
  let o := r.outline
  match g.word? with
  | some (p + 1) =>
    if !o.isOpening (p + 1) then none
    else match r.curriedGroup? p with
      | some s => some (.word s, .none)
      | none =>
        if o.isMark p .equals || !o.opens (p + 1) .brace then none
        else
          let anchor := o.statementAnchor r.settings p
          let rank := o.rankOf anchor
          if (r.definedKind? rank).any Kind.definesNonValue then
            let equals := (o.forward rank g.rank).any fun j => o.isMark j .equals
            some (anchor, if equals then .level else .none)
          else none
  | _ => none

def enumerator (r : Reading) (g : Gap) : Found :=
  let o := r.outline
  if g.word?.any o.isClosing then none
  else match o.enclosing? g.rank with
    | none => none
    | some b =>
      if o.kindBefore? b == some (.keyword .for_) && b + 1 < g.rank then
        (r.listAnchor? b).map fun anchor => (anchor, r.listStep g anchor)
      else none

def ifChain (o : Outline) (j : Nat) : Nat :=
  if o.kindBefore? j == some (.keyword .else_) then j - 1 else j

/-- The nearest `if` that is not taken by one of `pending` later `else` words; the expressions are
listed nearest first. -/
def openIf? (o : Outline) : Nat → List Nat → Option Nat
  | _, [] => none
  | pending, j :: js =>
    if o.isKeyword j .else_ then openIf? o (pending + 1) js
    else if o.isKeyword j .if_ then
      match pending with
      | 0 => some (ifChain o j)
      | rest + 1 => openIf? o rest js
    else openIf? o pending js

def formOf? (r : Reading) (i : Nat) : Option Nat :=
  let o := r.outline
  match o.kind? i with
  | some (.keyword .else_) => openIf? o 0 (o.backward i)
  | some (.keyword .catch_) => (o.backward i).find? fun j => o.isKeyword j .try_
  | some (.keyword .finally_) => (o.backward i).find? fun j => o.isKeyword j .try_
  | some (.keyword .yield_) => (o.backward i).find? fun j => o.isKeyword j .for_
  | _ => none

def form (r : Reading) (g : Gap) : Found :=
  match g.word? with
  | none => none
  | some i =>
    let afterBrace := r.outline.kindBefore? i == some (.closing .brace)
    if afterBrace && r.settings.alignForms then none
    else (r.formOf? i).map fun m =>
      if r.settings.alignForms then (.word m, .none)
      else (r.outline.statementAnchor r.settings m, if afterBrace then .level else .none)

def element (r : Reading) (g : Gap) : Found :=
  let o := r.outline
  if o.kindBefore? g.rank != some (.mark .comma) || g.word?.any o.isClosing then none
  else match o.enclosing? g.rank with
    | none => none
    | some b => (r.listAnchor? b).map fun anchor => (anchor, r.listStep g anchor)

def body (r : Reading) (g : Gap) : Found :=
  let o := r.outline
  (o.bodyIntro? g.rank).map fun intro =>
    let anchor :=
      if o.isKeyword intro .if_ && r.settings.alignForms then .word (ifChain o intro)
      else o.statementAnchor r.settings intro
    (anchor, if g.word?.any fun i => o.opens i .brace then .none else .level)

def runOnStep (r : Reading) (g : Gap) (i : Nat) (anchor : Anchor) : Int :=
  let o := r.outline
  let step := r.settings.step
  let head := o.rankOf anchor
  if o.isCaseClause head then
    2 * step - (((o.words[i]?).map Word.bars).getD 0 : Nat)
  else if (o.kind? head).any Kind.takesDoubleStep || (o.kind? i).any Kind.takesDoubleStep then
    2 * step
  else step + (o.valueLead r.settings head g.rank).size r.settings

def runOn (r : Reading) (g : Gap) : Found :=
  let o := r.outline
  match g.word? with
  | none => none
  | some i =>
    let k := o.runOnStart r.strategy i
    if k = i then none
    else
      let anchor := o.alignedAnchor r.settings k
      some (anchor, .columns (r.runOnStep g i anchor))

def block (r : Reading) (g : Gap) : Found :=
  let o := r.outline
  (o.enclosing? g.rank).map fun b =>
    let anchor := if o.isLineHead b then .word b else o.statementAnchor r.settings b
    (anchor, r.blockStep g (o.rankOf anchor))

end Reading

structure Site where
  start : Nat
  gap : Gap
  deriving DecidableEq, Repr

structure Rule where
  name : String
  resolve : Source → Settings → Strategy → Site → Option (Nat × Shift)

namespace Source

def site (s : Source) (pos : Nat) : Site where
  start := pos
  gap := ⟨s.rank pos, (s.indexAt? pos).isSome, s.stop ≤ pos⟩

def locate (s : Source) : Anchor → Nat
  | .word i => s.startOf i
  | .margin n => (s.line n).margin

end Source

namespace Rule

def ofReading (name : String) (found : Reading → Gap → Reading.Found) : Rule where
  name
  resolve s settings strategy site :=
    (found ⟨s.outline, settings, strategy⟩ site.gap).map fun (anchor, step) =>
      (s.locate anchor, step)

def builtin : List Rule :=
  [ofReading "open-paren" Reading.openBracket, ofReading "for-enumerators" Reading.enumerator,
    ofReading "forms-align" Reading.form, ofReading "list" Reading.element,
    ofReading "body" Reading.body, ofReading "run-on" Reading.runOn,
    ofReading "block" Reading.block]

end Rule
end Indentation
