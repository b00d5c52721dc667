import Lox.Proofs.Source.Cut
import Lox.Proofs.Syntax.Bare

/-!
Texts that scan to tokens, put together part by part. A part ends where it does before any text that
does not go on with it, so the tokens of the whole are those of its parts.
-/

namespace Lox.Source

/-- Before any text that satisfies `after`, the part is cut as if it stood alone; its tokens satisfy
`tokens` on whatever line it starts, and nothing in it is a fault. -/
structure Scans (s : String) (after : List Char → Prop) (tokens : List Token → Prop) : Prop where
  apart : ∀ rest, after rest → cut (s.toList ++ rest) = cut s.toList ++ cut rest
  good : ∀ p ∈ cut s.toList, p.error? 0 = none
  tokens : ∀ line, tokens (tokensAt line (cut s.toList))

/-- No condition on what comes after. -/
def Anything (_ : List Char) : Prop := True

/-- One sequence of tokens after another. -/
def Then (first second : List Token → Prop) (u : List Token) : Prop :=
  ∃ v w, u = v ++ w ∧ first v ∧ second w

/-- The text in front of anything ends a word. -/
def StopsBefore (s : String) : Prop := ∀ rest, Stops rest → Stops (s.toList ++ rest)

section Parts

variable {s t : String} {P Q : List Char → Prop} {R S : List Token → Prop}

/-- One text after another scans to the tokens of both, if the first ends before the second. -/
theorem Scans.append (hs : Scans s P R) (ht : Scans t Q S)
    (next : ∀ rest, Q rest → P (t.toList ++ rest)) (ends : Q []) : Scans (s ++ t) Q (Then R S) := by
  have whole : cut (s ++ t).toList = cut s.toList ++ cut t.toList := by
    rw [String.toList_append]
    have := hs.apart t.toList (by simpa using next [] ends)
    exact this
  constructor
  · intro rest hrest
    rw [whole, String.toList_append, List.append_assoc, hs.apart _ (next rest hrest),
      ht.apart rest hrest, List.append_assoc]
  · rw [whole]
    intro p hp
    rcases List.mem_append.mp hp with hp | hp
    · exact hs.good p hp
    · exact ht.good p hp
  · intro line
    rw [whole, tokensAt_append]
    exact ⟨_, _, rfl, hs.tokens line, ht.tokens _⟩

/-- A part that does not care what follows. -/
theorem Scans.then (hs : Scans s Anything R) (ht : Scans t Q S) (ends : Q []) :
    Scans (s ++ t) Q (Then R S) :=
  hs.append ht (fun _ _ => trivial) ends

/-- A word or number, before a part that ends it. -/
theorem Scans.thenAny (hs : Scans s Stops R) (ht : Scans t Anything S)
    (stops : ∀ rest, Stops (t.toList ++ rest)) : Scans (s ++ t) Anything (Then R S) :=
  hs.append ht (fun rest _ => stops rest) trivial

theorem Scans.mono {R' : List Token → Prop} (hs : Scans s P R) (h : ∀ u, R u → R' u) :
    Scans s P R' :=
  ⟨hs.apart, hs.good, fun line => h _ (hs.tokens line)⟩

theorem Scans.any (hs : Scans s Anything R) : Scans s P R :=
  ⟨fun rest _ => hs.apart rest trivial, hs.good, hs.tokens⟩

theorem scans_empty : Scans "" P (· = []) := by
  constructor
  · simp
  · simp
  · simp [tokensAt]

/-- A part that is one piece. -/
theorem scans_piece {p : Piece} {text : String}
    (h : ∀ rest, P rest → cut (text.toList ++ rest) = p :: cut rest) (ends : P [])
    (good : p.error? 0 = none) (tokens : ∀ line, R (p.token? line).toList) : Scans text P R := by
  have alone : cut text.toList = [p] := by
    simpa using h [] ends
  constructor
  · intro rest hrest
    rw [h rest hrest, alone]
    rfl
  · simpa [alone] using good
  · intro line
    simpa [alone, tokensAt] using tokens _

end Parts

/-! ### Single tokens -/

/-- The token of a kind that has one spelling. -/
def fixedToken (k : Token.Kind) : Token := { kind := k, lexeme := k.name, line := 0 }

/-- The tokens are the one token, on some line. -/
def Spelled (t : Token) (u : List Token) : Prop := ∃ t' : Token, u = [t'] ∧ t'.bare = t.bare

section Single

variable {k : Token.Kind}

/-- A blank makes no token. -/
theorem scans_blank {c : Char} (h : isBlank c = true) :
    Scans (String.singleton c) Anything (· = []) := by
  refine scans_piece (p := .blank c) (fun rest _ => ?_) trivial rfl (fun line => rfl)
  simpa using cut_blank h

theorem scans_closedSymbol (h : k ∈ closedSymbols) :
    Scans k.name Anything (Spelled (fixedToken k)) := by
  refine scans_piece (fun rest _ => cut_closedSymbol h) trivial rfl fun line => ?_
  exact ⟨_, rfl, by simp [Token.bare, fixedToken]⟩

theorem scans_openSymbol (h : k ∈ openSymbols) :
    Scans k.name (fun rest => rest.head? ≠ some '=' ∧ rest.head? ≠ some '/')
      (Spelled (fixedToken k)) := by
  refine scans_piece (fun rest hrest => cut_openSymbol h hrest.1 hrest.2) (by simp) rfl ?_
  exact fun line => ⟨_, rfl, by simp [Token.bare, fixedToken]⟩

/-- A word scans to one token, if it is in normal form. -/
theorem scans_word {word : String} (h : IsWord word.toList)
    (normal : Text.normalize word.toList = word.toList) :
    Scans word Stops (Spelled { kind := .ofWord word, lexeme := word, line := 0 }) := by
  refine scans_piece (fun rest hrest => cut_word h hrest) trivial rfl fun line => ?_
  exact ⟨_, rfl, by simp [Token.bare, wordLexeme, normal]⟩

/-- A keyword scans to its own token. -/
theorem scans_keyword (h : k ∈ Token.Kind.keywords) :
    Scans k.name Stops (Spelled (fixedToken k)) := by
  have known : ∀ k ∈ Token.Kind.keywords, IsWord k.name.toList ∧
      Text.normalize k.name.toList = k.name.toList ∧ Token.Kind.ofWord k.name = k := by
    decide +kernel
  obtain ⟨word, normal, kind⟩ := known k h
  have scans := scans_word word normal
  rwa [kind] at scans

theorem scans_space : Scans " " Anything (· = []) := scans_blank (c := ' ') rfl

/-- The text ends a word, whatever comes after it. -/
theorem stops_append {s : String} {rest : List Char}
    (h : s.toList.head?.any (fun c => !isWordPart c && c ≠ '.') = true) :
    Stops (s.toList ++ rest) := by
  cases hs : s.toList with
  | nil => simp [hs] at h
  | cons c tail =>
    simp only [hs, List.head?_cons, Option.any_some, Bool.and_eq_true, Bool.not_eq_true',
      decide_eq_true_eq] at h
    exact stops_cons h.1 h.2

/-- Blanks after a part are no tokens. -/
theorem Scans.blankAfter {s t : String} {P Q : List Char → Prop} {R : List Token → Prop}
    (hs : Scans s P R) (ht : Scans t Q (· = [])) (next : ∀ rest, Q rest → P (t.toList ++ rest))
    (ends : Q []) : Scans (s ++ t) Q R := by
  refine (hs.append ht next ends).mono ?_
  rintro _ ⟨v, _, rfl, hv, rfl⟩
  rwa [List.append_nil]

/-- Blanks before a part are no tokens. -/
theorem Scans.blankBefore {s t : String} {Q : List Char → Prop} {R : List Token → Prop}
    (hs : Scans s Anything (· = [])) (ht : Scans t Q R) (ends : Q []) : Scans (s ++ t) Q R := by
  refine (hs.then ht ends).mono ?_
  rintro _ ⟨_, w, rfl, rfl, hw⟩
  exact hw

/-- A keyword and a blank. -/
theorem scans_keyword_space (h : k ∈ Token.Kind.keywords) :
    Scans (k.name ++ " ") Anything (Spelled (fixedToken k)) :=
  (scans_keyword h).blankAfter scans_space (fun _ _ => stops_append (by decide)) trivial

/-- A symbol and a blank. -/
theorem scans_symbol_space (h : k ∈ closedSymbols ++ openSymbols) :
    Scans (k.name ++ " ") Anything (Spelled (fixedToken k)) := by
  rcases List.mem_append.mp h with h | h
  · exact (scans_closedSymbol h).blankAfter scans_space (fun _ _ => trivial) trivial
  · refine (scans_openSymbol h).blankAfter scans_space (fun rest _ => ?_) trivial
    have head : (" ".toList ++ rest).head? = some ' ' := rfl
    rw [head]
    decide

end Single

/-! ### Tokens as they come from a text -/

/-- A name that is spelled the way it scans. -/
structure IsName (name : String) : Prop where
  word : IsWord name.toList
  normal : Text.normalize name.toList = name.toList
  kind : Token.Kind.ofWord name = .identifier

/-- A number that its own text reads as. -/
def IsWritten (x : Float) : Prop :=
  IsNumeral (treeNumber.number x).toList ∧
    Decimal.read? (treeNumber.number x).toList = some x

/-- A token as scanning gives it. -/
structure Genuine (t : Token) : Prop where
  fixed : t.kind ∈ closedSymbols ++ openSymbols ++ Token.Kind.keywords →
    t.lexeme = t.kind.name ∧ t.literal = .none
  name : t.kind = .identifier → IsName t.lexeme ∧ t.literal = .none
  number : t.kind = .number → ∃ x, t.literal = .number x ∧ IsWritten x
  string : t.kind = .string → ∃ s, t.literal = .string s ∧ '"' ∉ s.toList

theorem bare_eq_fixedToken {t : Token} (lexeme : t.lexeme = t.kind.name)
    (literal : t.literal = .none) : t.bare = fixedToken t.kind := by
  rw [Token.bare, lexeme, literal]
  rfl

theorem Genuine.bare_eq {t : Token} (h : Genuine t) {k : Token.Kind} (hk : t.kind = k)
    (hmem : k ∈ closedSymbols ++ openSymbols ++ Token.Kind.keywords) : t.bare = fixedToken k := by
  obtain ⟨lexeme, literal⟩ := h.fixed (hk ▸ hmem)
  rw [bare_eq_fixedToken lexeme literal, hk]

/-- The lexeme of a genuine name scans to the name. -/
theorem Genuine.scans_name {t : Token} (h : Genuine t) (hk : t.kind = .identifier) :
    Scans t.lexeme Stops (Spelled t) := by
  obtain ⟨⟨word, normal, kind⟩, literal⟩ := h.name hk
  refine (scans_word word normal).mono ?_
  rintro _ ⟨t', rfl, ht'⟩
  refine ⟨t', rfl, ?_⟩
  rw [ht', kind, Token.bare, Token.bare, hk, literal]

/-- A number that is written as it is read scans to itself. -/
theorem scans_number {x : Float} (h : IsWritten x) :
    Scans (treeNumber.number x) Stops fun u =>
      ∃ t : Token, u = [t] ∧ t.kind = .number ∧ t.literal = .number x := by
  refine scans_piece (fun rest hrest => cut_number h.1 h.2 hrest) trivial rfl fun line => ?_
  exact ⟨_, rfl, rfl, rfl⟩

/-- A string without a quote in it scans to itself. -/
theorem scans_string {s : String} (h : '"' ∉ s.toList) :
    Scans (stringText s) Anything fun u =>
      ∃ t : Token, u = [t] ∧ t.kind = .string ∧ t.literal = .string s := by
  have text : (stringText s).toList = '"' :: (s.toList ++ ['"']) := by
    rw [stringText, String.toList_append, String.toList_append]
    rfl
  refine scans_piece (p := .string ('"' :: (s.toList ++ ['"']))) (fun rest _ => ?_) trivial rfl ?_
  · rw [text, List.cons_append, List.append_assoc]
    exact cut_string h
  · intro line
    refine ⟨_, rfl, rfl, ?_⟩
    simp [unquote]

/-- A token as the piece gives it, whatever normalization makes of words. -/
structure ScannedFrom (p : Piece) (t : Token) : Prop where
  fixed : t.kind ∈ closedSymbols ++ openSymbols ++ Token.Kind.keywords →
    t.lexeme = t.kind.name ∧ t.literal = .none
  name : t.kind = .identifier → (∃ w, p = .word w ∧ t.lexeme = wordLexeme w) ∧
    Token.Kind.ofWord t.lexeme = .identifier ∧ t.literal = .none
  number : t.kind = .number → ∃ x w, p = .number x w ∧ t.literal = .number x
  string : t.kind = .string → ∃ s, t.literal = .string s ∧ '"' ∉ s.toList

theorem scannedFrom_of_token? {p : Piece} (hp : p.Sound) {line : Nat} {t : Token}
    (h : p.token? line = some t) : ScannedFrom p t := by
  cases p with
  | blank | comment | bad => cases h
  | symbol k text =>
    cases h
    obtain ⟨hk, rfl⟩ := hp
    have known : ∀ k ∈ closedSymbols ++ openSymbols,
        k ≠ .identifier ∧ k ≠ .number ∧ k ≠ .string := by decide
    obtain ⟨h₁, h₂, h₃⟩ := known k hk
    exact ⟨fun _ => ⟨by simp, rfl⟩, fun h => absurd h h₁, fun h => absurd h h₂,
      fun h => absurd h h₃⟩
  | number x text =>
    cases h
    exact ⟨by simp; decide, by simp, fun _ => ⟨x, text, rfl, rfl⟩, by simp⟩
  | string text =>
    cases h
    obtain ⟨body, rfl, hbody⟩ := hp
    exact ⟨by simp; decide, by simp, by simp, fun _ => ⟨_, rfl, by simpa [unquote] using hbody⟩⟩
  | word text =>
    cases h
    have keyword {k : Token.Kind} (h : Token.Kind.ofWord (wordLexeme text) = k)
        (hk : k ≠ .identifier) : k ∈ Token.Kind.keywords := (ofWord_eq_iff h hk).1
    refine ⟨fun hk => ⟨?_, rfl⟩, fun hk => ⟨⟨text, rfl, rfl⟩, hk, rfl⟩, fun hk => ?_, fun hk => ?_⟩
    · refine (ofWord_eq_iff rfl fun h => ?_).2
      have other : Token.Kind.identifier ∉
          closedSymbols ++ openSymbols ++ Token.Kind.keywords := by decide
      rw [h] at hk
      exact other hk
    · exact absurd (keyword hk (by decide)) (by decide)
    · exact absurd (keyword hk (by decide)) (by decide)

/-- What scanning assumes of normalization, at one word: its normal form is a word, and is its own
normal form. -/
structure NormalizesWord (text : List Char) : Prop where
  word : IsWord (Text.normalize text)
  idempotent : Text.normalize (Text.normalize text) = Text.normalize text

/-- A token that was scanned is genuine, if its text is one of those that the parts are known for.
-/
theorem genuine_of_token? {p : Piece} (hp : p.Sound) {line : Nat} {t : Token}
    (words : ∀ text, p = .word text → NormalizesWord text)
    (numbers : ∀ x text, p = .number x text → IsWritten x) (h : p.token? line = some t) :
    Genuine t := by
  have scanned := scannedFrom_of_token? hp h
  refine ⟨scanned.fixed, fun kind => ?_, fun kind => ?_, scanned.string⟩
  · obtain ⟨⟨w, rfl, lexeme⟩, name, literal⟩ := scanned.name kind
    obtain ⟨word, normal⟩ := words w rfl
    have text : t.lexeme.toList = Text.normalize w := by simp [lexeme, wordLexeme]
    exact ⟨⟨text ▸ word, text ▸ normal, name⟩, literal⟩
  · obtain ⟨x, w, rfl, literal⟩ := scanned.number kind
    exact ⟨x, literal, numbers x w rfl⟩

end Lox.Source
