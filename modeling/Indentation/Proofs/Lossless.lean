import Indentation.Proofs.Covers

/-! Reading loses nothing. The tokens of a text are stretches of it in order, and what lies between
them is blank. A kind that has spellings is the kind of the tokens so spelled and of no others: a
lexeme of another shape always holds a character that no spelling holds. -/
namespace Indentation
open Lexer (tokensFrom)

namespace Kind

def spellings : Kind → List String
  | keyword k => [k.spelling]
  | opening .paren => ["("] | closing .paren => [")"]
  | opening .square => ["["] | closing .square => ["]"]
  | opening .brace => ["\x7b"] | closing .brace => ["\x7d"]
  | mark .comma => [","] | mark .semicolon => [";"] | mark .dot => ["."] | mark .colon => [":"]
  | mark .equals => ["="] | mark .arrow => ["=>", "⇒"] | mark .leftArrow => ["<-", "←"]
  | mark .subtype => ["<:"] | mark .supertype => [">:"] | mark .viewBound => ["<%"]
  | mark .hash => ["#"] | mark .at_ => ["@"]
  | comment | string | character | symbol | number | identifier | operator | unknown => []

theorem reservedEntry {k : Kind} {t : Text} (found : reserved? t = some k) : (t, k) ∈ reservedSpellings := by
  obtain ⟨entry, first, rfl⟩ := Option.map_eq_some_iff.mp found
  have same : entry.1 = t := by simpa using List.find?_some first
  exact same ▸ List.mem_of_find?_eq_some first

theorem reservedSpelled {k : Kind} {t : Text} (found : reserved? t = some k) :
    String.ofList t ∈ k.spellings := by
  have table : ∀ entry ∈ reservedSpellings, String.ofList entry.1 ∈ entry.2.spellings := by decide
  exact table _ (reservedEntry found)

theorem reservedOf {k : Kind} {t : Text} (spelled : String.ofList t ∈ k.spellings) :
    reserved? t = some k := by
  have table : ∀ w ∈ k.spellings, reserved? w.toList = some k := by
    cases k with
    | keyword k => cases k <;> decide
    | opening b => cases b <;> decide
    | closing b => cases b <;> decide
    | mark m => cases m <;> decide
    | _ => decide
  simpa using table _ spelled

def tells (c : Char) : Bool := c == '/' || c == '"' || c == '\'' || Text.isDigit c

theorem spelledPlain {k : Kind} {t : Text} (spelled : String.ofList t ∈ k.spellings) :
    ∀ c ∈ t, tells c = false := by
  have table : (reservedSpellings.all fun entry => entry.1.all fun c => !tells c) = true := by decide
  have plain := List.all_eq_true.mp table _ (reservedEntry (reservedOf spelled))
  simpa using plain

end Kind

namespace Shape
open Kind (tells)

def Telling (f : Shape) : Prop := ∀ t, f t ≠ 0 → ∃ c ∈ t.take (f t), tells c = true

theorem takeTells {t cs : Text} {c : Char} {k n : Nat} (here : t.drop k = c :: cs) (inside : k < n)
    (told : tells c = true) : ∃ d ∈ t.take n, tells d = true := by
  have at_ : t[k]? = some c := by
    have head := congrArg List.head? here
    rwa [List.head?_drop] at head
  have taken : (t.take n)[k]? = some c := by rw [List.getElem?_take_of_lt inside, at_]
  exact ⟨c, List.mem_of_getElem? taken, told⟩

theorem Telling.ofHead {f : Shape} (head : ∀ t, f t ≠ 0 → ∃ c cs, t = c :: cs ∧ tells c = true) :
    Telling f := by
  intro t some
  obtain ⟨c, cs, rfl, told⟩ := head t some
  exact takeTells (k := 0) rfl (Nat.pos_of_ne_zero some) told

theorem commentTelling : Telling comment := by
  apply Telling.ofHead
  intro t some
  unfold comment at some
  split at some
  · exact ⟨'/', _, rfl, rfl⟩
  · exact ⟨'/', _, rfl, rfl⟩
  · contradiction

theorem tripleTelling : Telling tripleString := by
  intro t some
  unfold tripleString at some
  split at some
  · rename_i cs opens
    have size : tripleString t = word t + 3 + through ['"', '"', '"'] cs := by simp [tripleString, opens]
    rw [size]
    exact takeTells opens (by omega) rfl
  · contradiction

theorem stringTelling : Telling string := by
  intro t some
  unfold string at some
  split at some
  · rename_i cs opens
    have size : string t = word t + 1 + stringTail cs := by simp [string, opens]
    rw [size]
    exact takeTells opens (by omega) rfl
  · contradiction

theorem characterTelling : Telling character := by
  apply Telling.ofHead
  intro t some
  unfold character at some
  split at some
  · exact ⟨'\'', _, rfl, rfl⟩
  · exact ⟨'\'', _, rfl, rfl⟩
  · contradiction

theorem symbolTelling : Telling symbol := by
  apply Telling.ofHead
  intro t some
  unfold symbol at some
  split at some
  · exact ⟨'\'', _, rfl, rfl⟩
  · contradiction

theorem numberTelling : Telling number := by
  apply Telling.ofHead
  intro t some
  cases t with
  | nil => simp [number, hexadecimal, decimal, span] at some
  | cons c cs =>
    refine ⟨c, cs, rfl, ?_⟩
    by_contra plain
    have other : Text.isDigit c = false := by
      simp only [tells, Bool.or_eq_true, not_or, Bool.not_eq_true] at plain
      exact plain.2
    have zero : c ≠ '0' := by
      rintro rfl
      exact absurd other (by decide)
    exact some (by simp [number, hexadecimal, zero, decimal, span, other])

theorem firstPlain (t : Text) : (first t).1.spellings = [] := by
  have shapes : ∀ entry ∈ all, entry.1.spellings = [] := by
    simp only [all, List.forall_mem_cons, List.not_mem_nil, false_imp_iff, implies_true, and_true,
      Kind.spellings]
  rcases firstShape t with ⟨f, member, _, _⟩ | single
  · exact shapes _ member
  · rw [single]
    rfl

theorem lookedUpOrTells (t u : Text) :
    Kind.ofLexeme (first t).1 u = (Kind.reserved? u).getD (first t).1 ∨
      Kind.ofLexeme (first t).1 u = (first t).1 ∧ ∃ c ∈ t.take (first t).2, tells c = true := by
  have shapes : ∀ entry ∈ all, Kind.ofLexeme entry.1 u = (Kind.reserved? u).getD entry.1 ∨
      Kind.ofLexeme entry.1 u = entry.1 ∧ Telling entry.2 := by
    simp only [all, List.forall_mem_cons, List.not_mem_nil, false_imp_iff, implies_true, and_true]
    exact ⟨.inr ⟨rfl, commentTelling⟩, .inr ⟨rfl, tripleTelling⟩, .inr ⟨rfl, stringTelling⟩,
      .inr ⟨rfl, characterTelling⟩, .inr ⟨rfl, numberTelling⟩, .inr ⟨rfl, symbolTelling⟩,
      .inl rfl, .inl rfl⟩
  rcases firstShape t with ⟨f, member, length, fits⟩ | single
  · rw [length]
    exact (shapes _ member).imp_right fun fixed => ⟨fixed.1, fixed.2 t fits⟩
  · rw [single]
    exact .inl rfl

theorem firstOwn {t u : Text} {k : Kind} (own : k.spellings = []) (kind : Kind.ofLexeme (first t).1 u = k) :
    (first t).1 = k := by
  rcases lookedUpOrTells t u with lookup | ⟨fixed, _⟩
  · cases found : Kind.reserved? u with
    | none => simpa [lookup, found] using kind
    | some k' =>
      have same : k' = k := by simpa [lookup, found] using kind
      have spelled := Kind.reservedSpelled found
      rw [same, own] at spelled
      contradiction
  · rw [← fixed, kind]

end Shape

namespace Token
variable {text : Text} {tok : Token} {k : Kind}

theorem kindIff (member : tok ∈ tokenize text) (reserved : k.spellings ≠ []) :
    tok.kind = k ↔ String.ofList tok.text ∈ k.spellings := by
  obtain ⟨a, b, _, at_⟩ := between member
  have plain : (Shape.first (tok.text ++ b)).1 ≠ k := fun same => reserved (same ▸ Shape.firstPlain _)
  rw [at_.kind]
  rcases Shape.lookedUpOrTells (tok.text ++ b) tok.text with lookup | ⟨fixed, c, inside, told⟩
  · rw [lookup]
    constructor
    · intro same
      cases found : Kind.reserved? tok.text with
      | none => rw [found] at same; exact absurd same plain
      | some k' =>
        rw [found, Option.getD_some] at same
        exact same ▸ Kind.reservedSpelled found
    · intro spelled
      rw [Kind.reservedOf spelled, Option.getD_some]
  · rw [fixed, at_.length, List.take_left] at *
    constructor
    · exact fun same => absurd same plain
    · intro spelled
      rw [Kind.spelledPlain spelled c inside] at told
      contradiction

theorem coveredFrom (line start : Nat) (t : Text) (i : Nat) {c : Char} (found : t[i]? = some c) :
    isBlank c = true ∨ ∃ tok ∈ tokensFrom line start t, tok.start ≤ start + i ∧ start + i < tok.stop := by
  induction t using Lexer.readingInduction generalizing line start i with
  | nil => simp at found
  | blank b t blank ih =>
    rw [Lexer.tokensFromBlank _ _ blank]
    cases i with
    | zero =>
      cases Option.some.inj found
      exact .inl blank
    | succ i =>
      have rest := ih (line + Lexer.feeds [b]) (start + 1) i (by simpa using found)
      rwa [Nat.add_assoc, Nat.add_comm 1 i] at rest
  | lexeme b y u visible length ih =>
    rw [Lexer.tokensFromLexeme _ _ visible length]
    by_cases inside : i < (b :: y).length
    · exact .inr ⟨_, List.mem_cons_self, Nat.le_add_right _ _, by simpa [stop] using inside⟩
    · rw [List.getElem?_append_right (by omega)] at found
      have rest := ih (line + Lexer.feeds (b :: y)) (start + (b :: y).length) _ found
      have place : start + (b :: y).length + (i - (b :: y).length) = start + i := by omega
      rw [place] at rest
      rcases rest with blank | ⟨tok, later, bounds⟩
      · exact .inl blank
      · exact .inr ⟨tok, List.mem_cons_of_mem _ later, bounds⟩

theorem slice (member : tok ∈ tokenize text) :
    tok.text = (text.drop tok.start).take (tok.stop - tok.start) := by
  obtain ⟨a, b, rfl, at_⟩ := between member
  rw [stop, Nat.add_sub_cancel_left, at_.start, List.append_assoc, List.drop_left, List.take_left]

theorem feedKind (member : tok ∈ tokenize text) (feed : '\n' ∈ tok.text) :
    tok.kind = .comment ∨ tok.kind = .string := by
  have some : 0 < Lexer.feeds tok.text := List.count_pos_iff.mpr feed
  have holds : tok.HoldsFeed (tok.line + 1) := ⟨by omega, by omega⟩
  exact (multiline member holds).1

end Token

theorem tokenizeLossless (text : Text) :
    (∀ tok ∈ tokenize text, tok.start < tok.stop ∧ tok.stop ≤ text.length ∧
      tok.text = (text.drop tok.start).take (tok.stop - tok.start)) ∧
    (tokenize text).Pairwise (fun x y => x.stop ≤ y.start) ∧
    (∀ p : Fin text.length, (∀ tok ∈ tokenize text, ¬ (tok.start ≤ p ∧ p < tok.stop)) →
      text[p] ∈ [' ', '\t', '\x0c', '\r', '\n']) ∧
    (∀ tok ∈ tokenize text, ∀ k : Kind, k.spellings ≠ [] →
      (tok.kind = k ↔ String.ofList tok.text ∈ k.spellings)) ∧
    (∀ tok ∈ tokenize text, '\n' ∈ tok.text → tok.kind = .comment ∨ tok.kind = .string) := by
  refine ⟨fun tok member => ⟨Token.startLt member, Token.stopLe member, Token.slice member⟩,
    Token.ordered 0 0 text, fun p free => ?_, fun tok member k => Token.kindIff member,
    fun tok member => Token.feedKind member⟩
  have found : text[p.val]? = some text[p] := List.getElem?_eq_getElem p.isLt
  rcases Token.coveredFrom 0 0 text p.val found with blank | ⟨tok, member, bounds⟩
  · simpa [isBlank] using blank
  · rw [Nat.zero_add] at bounds
    exact absurd bounds (free tok member)

theorem tokenizeLosslessArrow :
    let text := "/*\n*/ ⇒".toList
    let comment : Token := ⟨.comment, "/*\n*/".toList, 0, 0⟩
    let arrow : Token := ⟨.mark .arrow, "⇒".toList, 6, 1⟩
    (comment ∈ tokenize text ∧ '\n' ∈ comment.text ∧ (comment.kind = .comment ∨ comment.kind = .string)) ∧
    (arrow ∈ tokenize text ∧ (Kind.mark .arrow).spellings ≠ [] ∧
      (arrow.kind = .mark .arrow ↔ String.ofList arrow.text ∈ (Kind.mark .arrow).spellings)) ∧
    ∃ p : Fin text.length, p.val = 5 ∧ (∀ tok ∈ tokenize text, ¬ (tok.start ≤ p ∧ p < tok.stop)) ∧
      text[p] ∈ [' ', '\t', '\x0c', '\r', '\n'] := by
  intro text comment arrow
  obtain ⟨_, _, blanks, kinds, feeds⟩ := tokenizeLossless text
  have inComment : comment ∈ tokenize text := by decide +kernel
  have inArrow : arrow ∈ tokenize text := by decide +kernel
  have free : ∀ tok ∈ tokenize text, ¬ (tok.start ≤ 5 ∧ 5 < tok.stop) := by decide +kernel
  exact ⟨⟨inComment, by decide, feeds comment inComment (by decide)⟩,
    ⟨inArrow, by decide, kinds arrow inArrow (.mark .arrow) (by decide)⟩,
    ⟨5, by decide⟩, rfl, free, blanks ⟨5, by decide⟩ free⟩

end Indentation
