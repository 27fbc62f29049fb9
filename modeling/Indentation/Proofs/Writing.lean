import Indentation.Proofs.Checking

/-! What a run writes. A run that fails, or that was asked for a check, a line, the text on its output or help,
leaves all files as they are. Any other run puts the indented text where its target is and nowhere else, and
a check of that file with the same settings succeeds. -/
namespace Indentation
open Lexer (feeds)

namespace Source
variable {t : Text} {settings : Settings} {strategy : Strategy}

theorem lastStageAgain (t : Text) (settings : Settings) (strategy : Strategy) :
    let r := (ofText t).stage settings strategy (feeds t + 1)
    (ofText r).stage settings strategy (feeds r + 1) = r := by
  have shifted := stageShifted t settings strategy (feeds t + 1)
  refine (lastStageAlike shifted fun n bound free kept => ?_).symm
  rw [lastStageSolves bound, kept]
  rfl

theorem lastStageWidths (t : Text) (settings : Settings) (strategy : Strategy) :
    let r := (ofText t).stage settings strategy (feeds t + 1)
    (ofText r).widthsTo settings strategy (feeds r + 1) = (ofText t).widthsTo settings strategy (feeds t + 1) := by
  intro r
  have again : (ofText r).stage settings strategy (feeds r + 1) = r := lastStageAgain t settings strategy
  rw [← stageWidths (Nat.le_refl _), ← stageWidths (Nat.le_refl _), again]

end Source

namespace Indenter
variable {settings : Settings} {session : Session} {t result : Text} {strategy : Option Strategy}

theorem tryReindentOkIff :
    (({ settings, session } : Indenter).tryReindent t strategy).2.value = .ok result ↔
      ((Source.ofText t).pass Rule.builtin settings (strategy.getD session.finish.effective)).excess? = none ∧
        (Source.ofText t).stage settings (strategy.getD session.finish.effective) (feeds t + 1) = result := by
  have read : ({ settings, session } : Indenter).read t = .ok (Source.ofText t) := rfl
  rw [Source.stageLast]
  simp only [tryReindent, read]
  cases ((Source.ofText t).pass Rule.builtin settings (strategy.getD session.finish.effective)).excess? with
  | none => simp
  | some fault => simp

theorem tryReindentAgain
    (indented : (({ settings, session } : Indenter).tryReindent t strategy).2.value = .ok result) :
    (({ settings, session } : Indenter).tryReindent result strategy).2.value = .ok result := by
  rw [tryReindentOkIff] at indented ⊢
  obtain ⟨fits, rfl⟩ := indented
  refine ⟨?_, Source.lastStageAgain t settings _⟩
  have widths := Source.lastStageWidths t settings (strategy.getD session.finish.effective)
  unfold Source.widthsTo at widths
  rwa [Pass.excess?, Source.pass, Source.linesSize, widths, ← Source.linesSize]

end Indenter

namespace Command

structure Store.Replaced (s s' : Store) (path : Text) (bytes : ByteArray) : Prop where
  read : s'.read path = .ok bytes
  directories : s'.directories = s.directories
  others : ∃ place, s'.find path = .ok (.file place bytes) ∧ ∀ q, q ≠ place → s'.file? q = s.file? q

theorem Store.writeReplaced {s s' : Store} {path : Text} {bytes : ByteArray}
    (written : s.write path bytes = .ok s') : s.Replaced s' path bytes := by
  have reread := readWritten written
  obtain ⟨_, place, node, found, rfl, here⟩ := writePut written
  refine ⟨reread, ?_, place, by rw [findPut found, here], fun q other => ?_⟩
  · unfold put
    split <;> rfl
  · rw [fileOfPut, if_neg other]

def Options.readOnly (o : Options) : Bool := o.check || o.stdout || o.line.isSome

def readOnly (args : List Text) : Bool :=
  match Options.ofArguments args with
  | .ok o => o.readOnly
  | .error .help => true
  | .error .misuse => false

structure Options.Rechecks (o o' : Options) : Prop where
  file : o'.file = o.target
  check : o'.check = true
  line : o'.line = none
  preferences : o'.preferences = o.preferences

structure Options.Indents (o : Options) (store : Store) (settings : Settings) (text result : Text) : Prop where
  accepted : o.preferences.settings = .ok settings
  read : ∃ bytes, store.read o.file = .ok bytes ∧ Text.decode bytes = .ok text
  indented : ((Indenter.new settings).tryReindent text.normalizeLineEnds none).2.value = .ok result

variable {o o' : Options} {store after : Store} {settings : Settings} {text result content : Text}

theorem loadSource (loaded : load o store = .ok (settings, content)) :
    o.preferences.settings = .ok settings ∧
      ∃ bytes text, store.read o.file = .ok bytes ∧ Text.decode bytes = .ok text ∧
        content = text.normalizeLineEnds := by
  simp only [load, bind, Except.bind] at loaded
  split at loaded
  · contradiction
  · cases accepted : o.preferences.settings with
    | error e => simp [accepted, Except.mapError] at loaded
    | ok settings' =>
      cases held : store.read o.file with
      | error e => simp [accepted, held, Except.mapError] at loaded
      | ok bytes =>
        cases valid : Text.decode bytes with
        | error e => simp [accepted, held, valid, Except.mapError] at loaded
        | ok text =>
          simp [accepted, held, valid, Except.mapError, pure, Except.pure] at loaded
          obtain ⟨rfl, rfl⟩ := loaded
          exact ⟨rfl, bytes, text, rfl, valid, rfl⟩

theorem showLineStore (o : Options) (ind : Indenter) (store : Store) (content : Text) (n : Operand Int) :
    (showLine o ind store content n).store = store := by
  unfold showLine
  cases n with
  | nothing => rfl
  | value n =>
    dsimp only
    split
    · split <;> rfl
    · rfl

theorem compareStore (o : Options) (store : Store) (log : List String) (content result : Text) :
    (compare o store log content result).store = store := by
  unfold compare
  split
  · rfl
  · split <;> rfl

theorem indentCases (o : Options) (store : Store) :
    (indent o store).store = store ∧ ((indent o store).status ≠ 0 ∨ o.readOnly = true) ∨
    (indent o store).status = 0 ∧ o.readOnly = false ∧ ∃ settings text result,
      o.Indents store settings text result ∧
        store.write o.target result.encode = .ok (indent o store).store := by
  cases loaded : load o store with
  | error f =>
    rw [indent, loaded]
    exact .inl ⟨rfl, .inl Nat.one_ne_zero⟩
  | ok source =>
    obtain ⟨settings, content⟩ := source
    obtain ⟨accepted, bytes, text, held, valid, rfl⟩ := loadSource loaded
    rw [indent, loaded]
    dsimp only
    cases line : o.line with
    | some n => exact .inl ⟨showLineStore _ _ _ _ n, .inr (by simp [Options.readOnly, line])⟩
    | none =>
      cases indented : ((Indenter.new settings).tryReindent text.normalizeLineEnds none).2.value with
      | error e => exact .inl ⟨rfl, .inl Nat.one_ne_zero⟩
      | ok result =>
        dsimp only
        split
        · rename_i check
          exact .inl ⟨compareStore _ _ _ _ _, .inr (by simp [Options.readOnly, check])⟩
        · split
          · rename_i stdout
            exact .inl ⟨rfl, .inr (by simp [Options.readOnly, stdout])⟩
          · rename_i check stdout
            unfold save
            cases written : store.write o.target result.encode with
            | error e => exact .inl ⟨rfl, .inl Nat.one_ne_zero⟩
            | ok after =>
              have writes : o.readOnly = false := by simp [Options.readOnly, check, stdout, line]
              have indents : o.Indents store settings text result :=
                ⟨accepted, ⟨bytes, held, valid⟩, indented⟩
              exact .inr ⟨rfl, writes, settings, text, result, indents, written⟩

theorem indentRechecked (indents : o.Indents store settings text result)
    (held : after.read o.target = .ok result.encode) (again : o.Rechecks o') : (indent o' after).status = 0 := by
  have returnless : '\r' ∉ result := by
    rw [← Indenter.tryReindentOk indents.indented]
    exact Indenter.reindentReturnless _ _ _ (Text.normalizeReturnless text)
  have loaded : load o' after = .ok (settings, result) := by
    rw [← again.file] at held
    rw [loadOk held ((Text.decodeIff _ _).mpr rfl), again.preferences, indents.accepted,
      Text.normalizeSelf returnless]
    rfl
  have stays := Indenter.tryReindentAgain indents.indented
  have value : ((Indenter.new settings).tryReindent result none).2.value = .ok result := stays
  rw [indent, loaded]
  simp only [again.line, value, again.check, if_true]
  exact (compareStatus _ _ _ _ _).mpr rfl

structure Options.Saves (o : Options) (store after : Store) : Prop where
  replaced : ∃ settings bytes text, o.preferences.settings = .ok settings ∧ store.read o.file = .ok bytes ∧
    Text.decode bytes = .ok text ∧ store.Replaced after o.target
      ((Indenter.new settings).reindent text.normalizeLineEnds none).2.value.encode
  checked : ∀ args' o', Options.ofArguments args' = .ok o' → o.Rechecks o' → (run after args').status = 0

theorem runWrites (store : Store) (args : List Text) :
    let ran := run store args
    (ran.status ≠ 0 ∨ readOnly args = true → ran.store = store) ∧
      (ran.status = 0 ∧ readOnly args = false →
        ∃ o, Options.ofArguments args = .ok o ∧ o.Saves store ran.store) := by
  intro ran
  cases understood : Options.ofArguments args with
  | error stop =>
    have kept : ran.store = store ∧ ¬ (ran.status = 0 ∧ readOnly args = false) := by
      simp only [ran, run, readOnly, understood]
      cases stop with
      | misuse => simp
      | help => simp
    exact ⟨fun _ => kept.1, fun wrote => absurd wrote kept.2⟩
  | ok o =>
    have here : ran = indent o store := by simp only [ran, run, understood]
    have asked : readOnly args = o.readOnly := by simp only [readOnly, understood]
    rw [here, asked]
    rcases indentCases o store with ⟨kept, why⟩ | ⟨well, writes, settings, text, result, indents, written⟩
    · refine ⟨fun _ => kept, fun wrote => ?_⟩
      rcases why with fails | asked
      · exact absurd wrote.1 fails
      · rw [wrote.2] at asked
        contradiction
    · refine ⟨fun why => ?_, fun _ => ⟨o, rfl, ?_, ?_⟩⟩
      · simp [well, writes] at why
      · obtain ⟨bytes, held, valid⟩ := indents.read
        have replaced := Store.writeReplaced written
        rw [← Indenter.tryReindentOk indents.indented] at replaced
        exact ⟨settings, bytes, text, indents.accepted, held, valid, replaced⟩
      · intro args' o' understood' again
        rw [run, understood']
        exact indentRechecked indents (Store.readWritten written) again

theorem runWritesOutput :
    let store := Store.ofEntries [("a".toList, Text.encode "f(\r\nx)".toList)] []
    let args := ["a".toList, "b".toList, "--step=3".toList]
    let ran := run store args
    ran.status = 0 ∧ readOnly args = false ∧
      ran.store.read "b".toList = .ok (Text.encode "f(\n   x)".toList) ∧
      (run ran.store ["--check".toList, "--step".toList, "3".toList, "b".toList]).status = 0 := by
  intro store args ran
  have well : ran.status = 0 := by decide +kernel
  have writes : readOnly args = false := by decide
  obtain ⟨o, understood, saved⟩ := (runWrites store args).2 ⟨well, writes⟩
  have read : Options.ofArguments args =
      .ok { file := "a".toList, output := some "b".toList, step := .value 3 } := by decide
  obtain rfl := Except.ok.inj (read.symm.trans understood)
  have checked := saved.checked ["--check".toList, "--step".toList, "3".toList, "b".toList]
    { file := "b".toList, check := true, step := .value 3 } (by decide) ⟨rfl, rfl, rfl, rfl⟩
  exact ⟨well, writes, by decide +kernel, checked⟩

end Command
end Indentation
