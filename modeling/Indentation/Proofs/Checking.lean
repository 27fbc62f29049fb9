import Indentation.Command.Run
import Indentation.Proofs.Files
import Indentation.Proofs.Reindent

/-! What `--check` says of a run that rewrites its file. Both read the file with its line ends made uniform
and compare or write the same result, so the check tells whether a file with these line ends would stay
as it is. A file with a carriage return never stays as it is, and the check does not tell. -/
namespace Indentation

namespace Text

theorem decodeIff (bytes : ByteArray) (t : Text) : decode bytes = .ok t ↔ bytes = encode t := by
  unfold decode encode String.fromUTF8?
  constructor
  · intro read
    split at read
    · rename_i s found
      split at found
      · cases found
        cases read
        rw [String.ofList_toList]
        rfl
      · contradiction
    · contradiction
  · rintro rfl
    have valid : (String.ofList t).toUTF8.IsValidUTF8 := (String.ofList t).isValidUTF8
    have back : String.fromUTF8 (String.ofList t).toUTF8 valid = String.ofList t := rfl
    rw [dif_pos valid, back]
    exact congrArg Except.ok String.toList_ofList

theorem encodeInj {t t' : Text} : encode t = encode t' ↔ t = t' := by
  constructor
  · intro same
    have read := (decodeIff _ t).mpr rfl
    rw [same, (decodeIff _ t').mpr rfl] at read
    exact (Except.ok.inj read).symm
  · rintro rfl
    rfl

theorem normalizeReturnless (t : Text) : '\r' ∉ normalizeLineEnds t := by
  fun_induction normalizeLineEnds t with
  | case1 => exact List.not_mem_nil
  | case2 cs ih => simpa using ih
  | case3 cs plain ih => simpa using ih
  | case4 c cs both lone ih =>
    have other : c ≠ '\r' := lone
    simpa [Ne.symm other] using ih

theorem normalizeSelf {t : Text} (returnless : '\r' ∉ t) : normalizeLineEnds t = t := by
  fun_induction normalizeLineEnds t with
  | case1 => rfl
  | case2 cs ih => simp at returnless
  | case3 cs plain ih => simp at returnless
  | case4 c cs both lone ih => rw [ih fun member => returnless (List.mem_cons_of_mem c member)]

theorem unlinesReturnless {ls : List Text} (returnless : ∀ l ∈ ls, '\r' ∉ l) : '\r' ∉ unlines ls := by
  induction ls with
  | nil => exact List.not_mem_nil
  | cons l ls ih =>
    obtain ⟨here, later⟩ := List.forall_mem_cons.mp returnless
    cases ls with
    | nil => simpa [unlines] using here
    | cons l' ls =>
      rw [unlinesCons]
      simpa [here] using ih later

end Text

namespace Indenter

theorem reindentReturnless (settings : Settings) (session : Session) {t : Text} (strategy : Option Strategy)
    (returnless : '\r' ∉ t) :
    '\r' ∉ (({ settings, session } : Indenter).reindent t strategy).2.value := by
  rw [reindentValue, Source.stage]
  refine Text.unlinesReturnless fun l member => ?_
  obtain ⟨n, inside, rfl⟩ := List.mem_map.mp member
  rw [List.mem_range, Source.linesSize] at inside
  have none : '\r' ∉ ((Source.ofText t).line n).content :=
    mt (Source.contentMember (Nat.le_of_lt_succ inside)) returnless
  rcases (Source.ofText t).stageLineCases settings _ _ n with ⟨same, _⟩ | ⟨_, _, moved⟩
  · rwa [same]
  · rw [moved, Line.moved, List.mem_append, not_or]
    exact ⟨by simp, fun member => none ((Line.bodySublist _).subset member)⟩

end Indenter

namespace Command

def checkWord : Text := "--check".toList

structure Options.InPlace (o : Options) : Prop where
  check : o.check = false
  stdout : o.stdout = false
  line : o.line = none
  target : o.target = o.file

theorem classifyAllAppend {args : List Text} (unended : endMark ∉ args) {front back : List Argument} {more : List Text}
    (here : classifyAll args = .ok front) (there : classifyAll more = .ok back) :
    classifyAll (args ++ more) = .ok (front ++ back) := by
  induction args generalizing front with
  | nil =>
    cases here
    exact there
  | cons t ts ih =>
    obtain ⟨other, rest⟩ := not_or.mp (mt List.mem_cons.mpr unended)
    rw [classifyAll, if_neg (Ne.symm other)] at here
    rw [List.cons_append, classifyAll, if_neg (Ne.symm other)]
    cases first : classify t with
    | error e =>
      rw [first] at here
      contradiction
    | ok a =>
      cases later : classifyAll ts with
      | error e =>
        rw [first, later] at here
        contradiction
      | ok as' =>
        rw [first, later] at here
        cases here
        rw [ih rest later]
        rfl

theorem finishCheck {p : Progress} {o : Options} (done : finish p = .ok o) :
    ∃ p', takeArgument p (.flags [.check]) = .ok p' ∧ finish p' = .ok { o with check := true } := by
  unfold finish at done
  split at done
  · contradiction
  · rename_i ready
    obtain ⟨options, stage, awaited, extra⟩ := p
    cases done
    obtain ⟨⟨rfl, begun⟩, rfl⟩ : (extra = false ∧ stage ≠ .input) ∧ awaited = none := by simpa using ready
    refine ⟨_, rfl, ?_⟩
    cases stage with
    | input => contradiction
    | output => rfl
    | mark => rfl
    | closed => rfl

theorem Options.ofArgumentsCheck {args : List Text} {o : Options} (unended : endMark ∉ args)
    (understood : ofArguments args = .ok o) : ofArguments (args ++ [checkWord]) = .ok { o with check := true } := by
  have word : classifyAll [checkWord] = .ok [.flags [.check]] := by decide
  unfold ofArguments at understood ⊢
  cases words : classifyAll args with
  | error e =>
    rw [words] at understood
    contradiction
  | ok front =>
    rw [words] at understood
    rw [classifyAllAppend unended words word]
    dsimp only at understood ⊢
    cases read : front.foldlM takeArgument {} with
    | error e =>
      rw [read] at understood
      contradiction
    | ok p =>
      rw [read] at understood
      obtain ⟨p', taken, finished⟩ := finishCheck understood
      rw [List.foldlM_append, read]
      change (do finish (← [Argument.flags [.check]].foldlM takeArgument p)) = _
      rw [List.foldlM_cons, taken]
      exact finished

variable {o : Options} {store : Store} {bytes : ByteArray} {text : Text}

theorem loadOk (held : store.read o.file = .ok bytes) (valid : Text.decode bytes = .ok text) :
    load o store = (o.preferences.settings.mapError Failure.preference).map fun settings =>
      (settings, text.normalizeLineEnds) := by
  have there := (Store.writeRead held bytes).1
  unfold load
  rw [there, held]
  cases o.preferences.settings with
  | error e => rfl
  | ok settings =>
    change (do return (settings, (← (Text.decode bytes).mapError Failure.undecodable).normalizeLineEnds)) = _
    rw [valid]
    rfl

theorem compareStatus (o : Options) (store : Store) (log : List String) (content result : Text) :
    (compare o store log content result).status = 0 ↔ result = content := by
  unfold compare
  split
  · rename_i other
    simpa using other
  · rename_i same
    have agree : result = content := by simpa using same
    split <;> simp [agree]

theorem saveOver (target : o.target = o.file) (held : store.read o.file = .ok bytes) (log : List String)
    (result : Text) :
    (save o store log result).status = 0 ∧ (save o store log result).store.read o.file = .ok result.encode := by
  obtain ⟨_, store', written⟩ := Store.writeRead held result.encode
  unfold save
  rw [target, written]
  exact ⟨rfl, Store.readWritten written⟩

theorem indentPair (inPlace : o.InPlace) (held : store.read o.file = .ok bytes)
    (valid : Text.decode bytes = .ok text) :
    let ran := indent o store
    let checked := indent { o with check := true } store
    (ran.status = 1 ∧ ran.store = store ∧ checked.status = 1) ∨
      ∃ result, '\r' ∉ result ∧ ran.status = 0 ∧ ran.store.read o.file = .ok result.encode ∧
        (checked.status = 0 ↔ result = text.normalizeLineEnds) := by
  intro ran checked
  have loaded := loadOk held valid
  have here : ran = indent o store := rfl
  have there : checked = indent { o with check := true } store := rfl
  have same : load { o with check := true } store = load o store := rfl
  rw [indent, loaded] at here
  rw [indent, same, loaded] at there
  cases refused : o.preferences.settings with
  | error e =>
    rw [refused] at here there
    rw [here, there]
    exact .inl ⟨rfl, rfl, rfl⟩
  | ok settings =>
    rw [refused] at here there
    simp only [Except.mapError, Except.map, inPlace.line] at here there
    cases value : ((Indenter.new settings).tryReindent text.normalizeLineEnds none).2.value with
    | error e =>
      rw [value] at here there
      rw [here, there]
      exact .inl ⟨rfl, rfl, rfl⟩
    | ok result =>
      rw [value] at here there
      simp only [inPlace.check, inPlace.stdout, if_true, Bool.false_eq_true, if_false] at here there
      have returnless : '\r' ∉ result := by
        rw [← Indenter.tryReindentOk value]
        exact Indenter.reindentReturnless _ _ _ (Text.normalizeReturnless text)
      obtain ⟨saved, reread⟩ := saveOver inPlace.target held _ result
      rw [here, there]
      exact .inr ⟨result, returnless, saved, reread, compareStatus _ _ _ _ _⟩

/- The check tells whether the run would leave the file as it is, for the file with its line ends made
uniform. A file without carriage returns is that file; one with a carriage return is always changed by
a run that succeeds. A run that fails changes nothing, and the check fails too. -/
theorem checkedRun {store : Store} {args : List Text} {o : Options} {bytes : ByteArray} {text : Text}
    (unended : endMark ∉ args) (understood : Options.ofArguments args = .ok o) (inPlace : o.InPlace)
    (held : store.read o.file = .ok bytes) (valid : Text.decode bytes = .ok text) :
    let ran := run store args
    let checked := run store (args ++ [checkWord])
    (checked.status = 0 ∧ '\r' ∉ text ↔ ran.status = 0 ∧ ran.store.read o.file = .ok bytes) ∧
      (checked.status = 0 ↔
        ran.status = 0 ∧ ran.store.read o.file = .ok text.normalizeLineEnds.encode) ∧
      (ran.status = 0 ∨ ran.store = store) := by
  intro ran checked
  have here : ran = indent o store := by simp only [ran, run, understood]
  have there : checked = indent { o with check := true } store := by
    simp only [checked, run, Options.ofArgumentsCheck unended understood]
  rw [here, there, (Text.decodeIff bytes text).mp valid]
  rcases indentPair inPlace held valid with ⟨failed, kept, told⟩ | ⟨result, returnless, saved, reread, told⟩
  · simp [failed, kept, told]
  · rw [told, reread, Except.ok.injEq, Except.ok.injEq, Text.encodeInj, Text.encodeInj]
    refine ⟨?_, by simp [saved], .inl saved⟩
    simp only [saved, true_and]
    constructor
    · rintro ⟨same, plain⟩
      rw [same, Text.normalizeSelf plain]
    · rintro rfl
      exact ⟨(Text.normalizeSelf returnless).symm, returnless⟩

theorem checkedRunStep :
    let name := "a.scala".toList
    let text := "x(\n    y)\n".toList
    let store := Store.ofEntries [(name, Text.encode text)] []
    let args := [name, "--step".toList, "4".toList]
    let ran := run store args
    let checked := run store (args ++ [checkWord])
    endMark ∉ args ∧ store.read name = .ok (Text.encode text) ∧
      (checked.status = 0 ∧ '\r' ∉ text ↔ ran.status = 0 ∧ ran.store.read name = .ok (Text.encode text)) := by
  intro name text store args ran checked
  have unended : endMark ∉ args := by decide
  have understood : Options.ofArguments args = .ok { file := name, step := .value 4 } := by decide
  have held : store.read name = .ok (Text.encode text) := by decide +kernel
  have valid : Text.decode (Text.encode text) = .ok text := (Text.decodeIff _ _).mpr rfl
  exact ⟨unended, held, (checkedRun unended understood ⟨rfl, rfl, rfl, rfl⟩ held valid).1⟩

theorem checkedRunReturn :
    let name := "a.scala".toList
    let text := "x\r\n".toList
    let store := Store.ofEntries [(name, Text.encode text)] []
    let ran := run store [name]
    (run store [name, checkWord]).status = 0 ∧ ran.status = 0 ∧
      ran.store.read name = .ok (Text.encode "x\n".toList) ∧ ran.store.read name ≠ .ok (Text.encode text) := by
  decide +kernel

end Command
end Indentation
