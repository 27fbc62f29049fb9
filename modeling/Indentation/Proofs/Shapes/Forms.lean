import Indentation.Proofs.Shapes.Combined

/-! The shapes of lexemes, each put together from spans of characters. So it can be read off the form of
each shape that the text behind the lexeme does not matter, and of all but block comments and triple
strings that the lexeme ends on its line. Words and numbers also end before a quote and before a slash. -/
namespace Indentation.Shape
open Text

theorem wordEq : word = lead isWordStart (span isWordChar) := by
  funext t
  cases t <;> rfl

theorem commentEq : comment =
    headed (· == '/') (orElse (lead (· == '/') (span (· != '\n'))) (lead (· == '*') (through ['*', '/']))) := by
  funext t
  rcases t with _ | ⟨c, _ | ⟨d, t⟩⟩
  · rfl
  · simp [comment, headedCons, orElse, lead]
  · by_cases slash : c = '/'
    · by_cases line : d = '/'
      · simp [slash, line, comment, headedCons, orElse, leadCons]
        omega
      · by_cases block : d = '*'
        · simp [slash, block, comment, headedCons, orElse, leadCons]
          omega
        · simp [slash, line, block, comment, headedCons, orElse, leadCons]
    · simp [slash, comment, headedCons]

theorem stringEq : string = led word (lead (· == '"') stringTail) := by
  funext t
  unfold string led
  cases t.drop (word t) with
  | nil => rfl
  | cons c cs =>
    by_cases quote : c = '"'
    · simp [quote, leadCons]
      omega
    · simp [quote, leadCons]

theorem tripleStringEq : tripleString =
    led word (headed (· == '"') (headed (· == '"') (lead (· == '"') (through ['"', '"', '"'])))) := by
  funext t
  unfold tripleString led
  rcases t.drop (word t) with _ | ⟨c, _ | ⟨d, _ | ⟨e, cs⟩⟩⟩
  · rfl
  · simp [headed]
  · simp [headedCons, lead]
  · by_cases quotes : c = '"' ∧ d = '"' ∧ e = '"'
    · obtain ⟨rfl, rfl, rfl⟩ := quotes
      simp [headedCons, leadCons]
      omega
    · simp [headedCons, leadCons]
      grind

theorem characterEq : character =
    headed (· == '\'') (orElse
      (headed (· == '\\') (headed (· != '\n') (lead (· == '\'') nothing)))
      (headed (fun c => c != '\'' && c != '\\' && c != '\n') (lead (· == '\'') nothing))) := by
  funext t
  fun_cases character t with
  | case1 cs => simp [headedCons, orElse]
  | case2 c cs feed => simp [headedCons, orElse, leadCons, feed, nothing]
  | case3 c cs escaped bad =>
    have either : (c = '\'' ∨ c = '\\') ∨ c = '\n' := by simpa using bad
    rcases either with (rfl | rfl) | rfl
    · simp [headedCons, orElse]
    · cases cs with
      | nil => simp [headedCons, orElse, lead]
      | cons d cs =>
        have other : d ≠ '\'' := fun same => escaped cs rfl (by rw [same])
        simp [headedCons, orElse, leadCons, other]
    · simp [headedCons, orElse]
  | case4 c cs escaped good =>
    obtain ⟨⟨quote, escape⟩, feed⟩ : (c ≠ '\'' ∧ c ≠ '\\') ∧ c ≠ '\n' := by simpa using good
    simp [headedCons, orElse, leadCons, nothing, quote, escape, feed]
  | case5 t escaped plain =>
    rcases t with _ | ⟨a, _ | ⟨b, _ | ⟨c, cs⟩⟩⟩
    · rfl
    · simp [headed, orElse]
    · simp [headed, orElse, lead]
    · by_cases quote : a = '\''
      · subst quote
        have second : c ≠ '\'' := fun same => plain b cs (by rw [same])
        rcases cs with _ | ⟨d, cs⟩
        · simp [headedCons, orElse, lead, second]
        · by_cases escape : b = '\\'
          · have first : d ≠ '\'' := fun same => escaped c cs (by rw [escape, same])
            simp [headedCons, orElse, leadCons, second, first]
          · simp [headedCons, orElse, leadCons, second, escape]
      · simp [headedCons, quote]
theorem symbolEq : symbol = headed (· == '\'') word := by
  funext t
  cases t with
  | nil => rfl
  | cons c cs =>
    by_cases quote : c = '\''
    · simp [quote, symbol, headedCons]
    · simp [quote, symbol, headedCons]

theorem hexadecimalEq : hexadecimal =
    headed (· == '0') (headed (fun c => c == 'x' || c == 'X') (span isHexDigit)) := by
  funext t
  rcases t with _ | ⟨c, _ | ⟨d, t⟩⟩
  · rfl
  · simp [hexadecimal, headed]
  · simp [headedCons]
    by_cases zero : c = '0'
    · simp [zero, hexadecimal]
      grind
    · simp [zero, hexadecimal]

theorem fractionEq : fraction = headed (· == '.') (span Text.isDigit) := by
  funext t
  cases t with
  | nil => rfl
  | cons c cs =>
    by_cases point : c = '.'
    · simp [point, fraction, headedCons]
    · simp [point, fraction, headedCons]

theorem signEq : sign = lead (fun c => c == '+' || c == '-') nothing := by
  funext t
  cases t with
  | nil => rfl
  | cons c cs => simp [sign, leadCons, nothing]

theorem typeLetterEq : typeLetter = lead (· ∈ ['l', 'L', 'f', 'F', 'd', 'D']) nothing := by
  funext t
  cases t with
  | nil => rfl
  | cons c cs => simp [typeLetter, leadCons, nothing]

theorem exponentEq : exponent = headed (fun c => c == 'e' || c == 'E') (led sign (span Text.isDigit)) := by
  funext t
  cases t with
  | nil => rfl
  | cons c cs =>
    simp [exponent, headedCons, led]
    grind

theorem decimalEq : decimal = followed (followed (span Text.isDigit) fraction) exponent := by
  funext t
  simp [decimal, followed]
  grind

theorem numberEq : number = followed (orElse hexadecimal decimal) typeLetter := by
  funext t
  rfl

theorem quotedIdentifierEq : quotedIdentifier = headed (· == '\x60')
    (led (span fun c => c != '\x60' && c != '\n') (lead (· == '\x60') nothing)) := by
  funext t
  cases t with
  | nil => rfl
  | cons c cs =>
    by_cases quote : c = '\x60'
    · simp [quote, quotedIdentifier, headedCons, led]
      generalize hs : span _ cs = inside
      cases cs.drop inside with
      | nil => rfl
      | cons d ds =>
        by_cases close : d = '\x60'
        · simp [close, leadCons, nothing]; omega
        · simp [close, leadCons]
    · simp [quote, quotedIdentifier, headedCons]

theorem plainIdentifierEq : plainIdentifier =
    lead (fun c => isWordStart c || c == '$') (span fun c => isWordChar c || c == '$') := by
  funext t
  cases t <;> rfl

theorem identifierEq : identifier = orElse quotedIdentifier plainIdentifier := rfl

/- The tail of a string is no combination: it reads two characters after a backslash. -/

theorem stringTailOther {c : Char} (quote : c ≠ '"') (feed : c ≠ '\n') (escape : c ≠ '\\')
    (cs : Text) : stringTail (c :: cs) = 1 + stringTail cs := by
  rw [stringTail]
  · exact quote
  · exact feed
  · exact fun same => absurd same escape
  · exact fun _ _ same => absurd same escape

theorem stringTailSteady : Steady stringTail := by
  intro x u inside
  fun_induction stringTail x with
  | case1 => exact (Nat.le_zero.mp inside).symm
  | case2 cs => rfl
  | case3 cs => rfl
  | case4 =>
    cases u with
    | nil => rfl
    | cons d u =>
      simp only [List.singleton_append, stringTail, List.length_singleton] at inside ⊢
      by_cases feed : d = '\n'
      · rw [if_pos feed]
      · rw [if_neg feed] at inside
        omega
  | case5 cs => simp [stringTail]
  | case6 c cs feed ih =>
    simp only [List.cons_append, stringTail, if_neg feed] at inside ⊢
    rw [ih (by simp only [List.length_cons] at inside; omega)]
  | case7 c cs quote feed lone escape ih =>
    have other : c ≠ '\\' := by
      intro same
      cases cs with
      | nil => exact lone same rfl
      | cons d ds => exact escape d ds same rfl
    rw [List.cons_append, stringTailOther quote feed other] at inside ⊢
    rw [ih (by rw [List.length_cons] at inside; omega)]

theorem stringTailInline : Inline stringTail := by
  intro t
  fun_induction stringTail t with
  | case1 => exact Nat.zero_le _
  | case2 cs => simp [firstLineCons]
  | case3 cs => exact Nat.zero_le _
  | case4 => exact Nat.zero_le _
  | case5 cs => exact Nat.zero_le _
  | case6 c cs feed ih =>
    rw [firstLineCons (by decide), firstLineCons feed, List.length_cons, List.length_cons]
    omega
  | case7 c cs quote feed lone escape ih =>
    rw [firstLineCons feed, List.length_cons]
    omega

theorem wordSteady : Steady word := wordEq ▸ (spanSteady _).lead

theorem wordGreedy : Greedy word := wordEq ▸ (spanGreedy _).lead

def breaks : List Char := ['\n', '"', '/']

variable {m : Char}

theorem breaksCases (ends : m ∈ breaks) : m = '\n' ∨ m = '"' ∨ m = '/' := by simpa [breaks] using ends

theorem wordBefore (ends : m ∈ breaks) : Before m word := by
  rw [wordEq]
  refine (spanBefore ?_).lead ?_
  all_goals rcases breaksCases ends with rfl | rfl | rfl <;> decide

theorem commentSteady : Steady comment :=
  commentEq ▸ ((spanSteady _).lead.orElse (throughSteady _).lead).headed

theorem tripleStringSteady : Steady tripleString :=
  tripleStringEq ▸ wordSteady.led wordGreedy (throughSteady _).lead.headed.headed rfl

theorem stringSteady : Steady string := stringEq ▸ wordSteady.led wordGreedy stringTailSteady.lead rfl

theorem stringInline : Inline string := by
  have tail : Before '\n' stringTail := stringTailInline
  rw [stringEq]
  exact (wordBefore (by decide)).led (tail.lead (by decide))

theorem characterSteady : Steady character :=
  characterEq ▸ (nothingSteady.lead.headed.headed.orElse nothingSteady.lead.headed).headed

theorem characterInline : Inline character := by
  rw [characterEq]
  exact ((((nothingBefore.lead (by decide)).headed (by decide)).headed (by decide)).orElse
    ((nothingBefore.lead (by decide)).headed (by decide))).headed (by decide)

theorem symbolSteady : Steady symbol := symbolEq ▸ wordSteady.headed

theorem symbolBefore (ends : m ∈ breaks) : Before m symbol := by
  rw [symbolEq]
  refine (wordBefore ends).headed ?_
  rcases breaksCases ends with rfl | rfl | rfl <;> decide

theorem hexadecimalSteady : Steady hexadecimal := hexadecimalEq ▸ (spanSteady _).headed.headed

theorem hexadecimalBefore (ends : m ∈ breaks) : Before m hexadecimal := by
  rw [hexadecimalEq]
  refine ((spanBefore ?_).headed ?_).headed ?_
  all_goals rcases breaksCases ends with rfl | rfl | rfl <;> decide

theorem fractionSteady : Steady fraction := fractionEq ▸ (spanSteady _).headed

theorem fractionBefore (ends : m ∈ breaks) : Before m fraction := by
  rw [fractionEq]
  refine (spanBefore ?_).headed ?_
  all_goals rcases breaksCases ends with rfl | rfl | rfl <;> decide

theorem signSteady : Steady sign := signEq ▸ nothingSteady.lead

theorem signGreedy : Greedy sign := signEq ▸ nothingGreedy.lead

theorem signBefore (ends : m ∈ breaks) : Before m sign := by
  rw [signEq]
  refine nothingBefore.lead ?_
  rcases breaksCases ends with rfl | rfl | rfl <;> decide

theorem exponentSteady : Steady exponent := exponentEq ▸ (signSteady.led signGreedy (spanSteady _) rfl).headed

theorem exponentBefore (ends : m ∈ breaks) : Before m exponent := by
  rw [exponentEq]
  refine ((signBefore ends).led (spanBefore ?_)).headed ?_
  all_goals rcases breaksCases ends with rfl | rfl | rfl <;> decide

theorem decimalSteady : Steady decimal :=
  decimalEq ▸ ((spanSteady _).followed fractionSteady).followed exponentSteady

theorem decimalBefore (ends : m ∈ breaks) : Before m decimal := by
  rw [decimalEq]
  refine ((spanBefore ?_).followed (fractionBefore ends)).followed (exponentBefore ends)
  rcases breaksCases ends with rfl | rfl | rfl <;> decide

theorem numberSteady : Steady number :=
  numberEq ▸ (hexadecimalSteady.orElse decimalSteady).followed (typeLetterEq ▸ nothingSteady.lead)

theorem numberBefore (ends : m ∈ breaks) : Before m number := by
  rw [numberEq, typeLetterEq]
  refine ((hexadecimalBefore ends).orElse (decimalBefore ends)).followed (nothingBefore.lead ?_)
  rcases breaksCases ends with rfl | rfl | rfl <;> decide

theorem identifierSteady : Steady identifier := by
  rw [identifierEq, quotedIdentifierEq, plainIdentifierEq]
  exact ((spanSteady _).led (spanGreedy _) nothingSteady.lead rfl).headed.orElse (spanSteady _).lead

theorem plainIdentifierBefore (ends : m ∈ breaks) : Before m plainIdentifier := by
  rw [plainIdentifierEq]
  refine (spanBefore ?_).lead ?_
  all_goals rcases breaksCases ends with rfl | rfl | rfl <;> decide

theorem identifierInline : Inline identifier := by
  rw [identifierEq, quotedIdentifierEq]
  exact (((spanBefore (by decide)).led (nothingBefore.lead (by decide))).headed (by decide)).orElse
    (plainIdentifierBefore (by decide))

theorem operatorSteady : Steady operator := spanSteady _

theorem operatorInline : Inline operator := spanBefore (by decide)

theorem allSteady : ∀ entry ∈ all, Steady entry.2 := by
  simp only [all, List.forall_mem_cons, List.not_mem_nil, false_imp_iff, implies_true, and_true]
  exact ⟨commentSteady, tripleStringSteady, stringSteady, characterSteady, numberSteady, symbolSteady,
    identifierSteady, operatorSteady⟩

end Indentation.Shape
