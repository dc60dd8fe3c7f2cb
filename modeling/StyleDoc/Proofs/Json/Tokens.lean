import Mathlib.Tactic.SplitIfs
import StyleDoc.Proofs.Json.Grammar

/-!
The tokens of a text. A gap ends at the one place where a token can start, and the escapes of a
string stand for the characters they were written for.
-/

namespace StyleDoc

namespace Json

/-- The input starts with a token. -/
def Solid (input : List Char) : Prop :=
  ∀ c ∈ input.head?, ¬ IsBlank c

theorem solid_cons {c : Char} {input : List Char} (hc : ¬ IsBlank c) : Solid (c :: input) := by
  intro d hd
  obtain rfl : c = d := by simpa using hd
  exact hc

theorem gap_cons {c : Char} {input rest : List Char} (hc : ¬ IsBlank c) :
    Gap (c :: input) rest ↔ rest = c :: input := by
  constructor
  · rintro ⟨blanks, hblanks, hinput⟩
    cases blanks with
    | nil => exact hinput.symm
    | cons b blanks =>
        simp only [List.cons_append, List.cons.injEq] at hinput
        exact absurd (hinput.1 ▸ hblanks b (List.mem_cons_self ..)) hc
  · rintro rfl
    exact ⟨[], by simp, rfl⟩

theorem gap_blanks_append {blanks input rest : List Char} (hblanks : ∀ c ∈ blanks, IsBlank c)
    (hrest : Solid rest) : Gap (blanks ++ input) rest ↔ Gap input rest := by
  induction blanks with
  | nil => simp
  | cons b blanks ih =>
      rw [← ih fun c hc => hblanks c (List.mem_cons_of_mem _ hc)]
      constructor
      · rintro ⟨skipped, hskipped, hinput⟩
        cases skipped with
        | nil =>
            have hhead : b ∈ rest.head? := by simpa using congrArg List.head? hinput.symm
            exact absurd (hblanks b (List.mem_cons_self ..)) (hrest b hhead)
        | cons s skipped =>
            simp only [List.cons_append, List.cons.injEq] at hinput
            exact ⟨skipped, fun c hc => hskipped c (List.mem_cons_of_mem _ hc), hinput.2⟩
      · rintro ⟨skipped, hskipped, hinput⟩
        refine ⟨b :: skipped, ?_, by simp [hinput]⟩
        intro c hc
        rcases List.mem_cons.mp hc with rfl | hc
        · exact hblanks c (List.mem_cons_self ..)
        · exact hskipped c hc

theorem isBlank_of_mem_newline {level : Nat} {c : Char} (hc : c ∈ newline level) : IsBlank c := by
  rcases List.mem_cons.mp hc with rfl | hc
  · decide
  · rw [List.eq_of_mem_replicate hc]
    decide

theorem gap_solid {input rest : List Char} (hinput : Solid input) :
    Gap input rest ↔ rest = input := by
  cases input with
  | nil =>
      constructor
      · rintro ⟨skipped, hskipped, hinput⟩
        exact (List.append_eq_nil_iff.mp hinput.symm).2
      · rintro rfl
        exact ⟨[], by simp, rfl⟩
  | cons c input => exact gap_cons (hinput c rfl)

/-- Only the token that follows the blanks can be read after them. -/
theorem gap_blanks {blanks input rest : List Char} (hblanks : ∀ c ∈ blanks, IsBlank c)
    (hinput : Solid input) (hrest : Solid rest) : Gap (blanks ++ input) rest ↔ rest = input :=
  (gap_blanks_append hblanks hrest).trans (gap_solid hinput)

theorem gap_newline {level : Nat} {input rest : List Char} (hinput : Solid input)
    (hrest : Solid rest) : Gap (newline level ++ input) rest ↔ rest = input :=
  gap_blanks (fun _ => isBlank_of_mem_newline) hinput hrest

theorem hexValue?_hexDigit {n : Nat} (hn : n < 16) : hexValue? (hexDigit n) = some n := by
  have hall : ∀ n < 16, hexValue? (hexDigit n) = some n := by decide
  exact hall n hn

theorem codeUnit?_hexDigit {n : Nat} (hn : n < 0x20) :
    codeUnit? '0' '0' (hexDigit (n / 16)) (hexDigit (n % 16)) = some n := by
  have hzero : hexValue? '0' = some 0 := by decide
  simp only [codeUnit?, hzero, hexValue?_hexDigit (show n / 16 < 16 by omega),
    hexValue?_hexDigit (show n % 16 < 16 by omega), Option.bind_eq_bind, Option.bind_some,
    Option.pure_def, Option.some.injEq]
  omega

theorem characters_quote {input text rest : List Char} :
    Characters ('"' :: input) text rest ↔ text = [] ∧ rest = input := by
  constructor
  · intro htext
    cases htext with
    | close => exact ⟨rfl, rfl⟩
    | plain hchar hquote hslash htext => exact absurd rfl hquote
  · rintro ⟨rfl, rfl⟩
    exact .close _

theorem characters_plain {c : Char} {input text rest : List Char} (hc : 0x20 ≤ c.toNat)
    (hquote : c ≠ '"') (hslash : c ≠ '\\') :
    Characters (c :: input) text rest ↔ ∃ more, text = c :: more ∧ Characters input more rest := by
  constructor
  · intro htext
    cases htext with
    | close => exact absurd rfl hquote
    | plain _ _ _ htext => exact ⟨_, rfl, htext⟩
    | short => exact absurd rfl hslash
    | unit => exact absurd rfl hslash
    | pair => exact absurd rfl hslash
  · rintro ⟨more, rfl, htext⟩
    exact .plain hc hquote hslash htext

theorem shortEscapes_functional {mark c d : Char} (hc : (mark, c) ∈ shortEscapes)
    (hd : (mark, d) ∈ shortEscapes) : c = d := by
  have hall : ∀ first ∈ shortEscapes, ∀ second ∈ shortEscapes,
      first.1 = second.1 → first.2 = second.2 := by decide
  exact hall _ hc _ hd rfl

theorem not_mem_shortEscapes_u (c : Char) : ('u', c) ∉ shortEscapes := by
  simp [shortEscapes]

theorem characters_short {mark c : Char} {input text rest : List Char}
    (hmark : (mark, c) ∈ shortEscapes) :
    Characters ('\\' :: mark :: input) text rest ↔
      ∃ more, text = c :: more ∧ Characters input more rest := by
  constructor
  · intro htext
    cases htext with
    | plain _ _ hslash => exact absurd rfl hslash
    | short hother htext =>
        obtain rfl := shortEscapes_functional hother hmark
        exact ⟨_, rfl, htext⟩
    | unit => exact absurd hmark (not_mem_shortEscapes_u c)
    | pair => exact absurd hmark (not_mem_shortEscapes_u c)
  · rintro ⟨more, rfl, htext⟩
    exact .short hmark htext

theorem characters_unit {c : Char} {input text rest : List Char} (hc : c.toNat < 0x20) :
    Characters
        ('\\' :: 'u' :: '0' :: '0' :: hexDigit (c.toNat / 16) :: hexDigit (c.toNat % 16) :: input)
        text rest ↔ ∃ more, text = c :: more ∧ Characters input more rest := by
  have hcode := codeUnit?_hexDigit hc
  constructor
  · intro htext
    cases htext with
    | plain _ _ hslash => exact absurd rfl hslash
    | short hmark => exact absurd hmark (not_mem_shortEscapes_u _)
    | unit hunit hrange htext =>
        obtain rfl := Option.some.inj (hunit.symm.trans hcode)
        exact ⟨_, by rw [Char.ofNat_toNat], htext⟩
    | pair hhigh hhighRange =>
        obtain rfl := Option.some.inj (hhigh.symm.trans hcode)
        omega
  · rintro ⟨more, rfl, htext⟩
    have hread := Characters.unit hcode (by omega) htext
    rwa [Char.ofNat_toNat] at hread

/-- An escaped character is read back as itself, whatever follows it. -/
theorem characters_escapeChar {c : Char} {input text rest : List Char} :
    Characters (escapeChar c ++ input) text rest ↔
      ∃ more, text = c :: more ∧ Characters input more rest := by
  unfold escapeChar
  split_ifs with hquote hslash hback hfeed hline hreturn htab hcontrol
  · exact characters_short (by simp [hquote, shortEscapes])
  · exact characters_short (by simp [hslash, shortEscapes])
  · exact characters_short (by simp [hback, shortEscapes])
  · exact characters_short (by simp [hfeed, shortEscapes])
  · exact characters_short (by simp [hline, shortEscapes])
  · exact characters_short (by simp [hreturn, shortEscapes])
  · exact characters_short (by simp [htab, shortEscapes])
  · exact characters_unit hcontrol
  · exact characters_plain (by omega) hquote hslash

/-- The closing quote is the one that was written, since every other quote is escaped. -/
theorem characters_quoted {text input read rest : List Char} :
    Characters (text.flatMap escapeChar ++ '"' :: input) read rest ↔
      read = text ∧ rest = input := by
  induction text generalizing read with
  | nil => exact characters_quote
  | cons c text ih =>
      rw [List.flatMap_cons, List.append_assoc, characters_escapeChar]
      constructor
      · rintro ⟨more, rfl, htext⟩
        obtain ⟨rfl, rfl⟩ := ih.mp htext
        exact ⟨rfl, rfl⟩
      · rintro ⟨rfl, rfl⟩
        exact ⟨text, rfl, ih.mpr ⟨rfl, rfl⟩⟩

theorem IsNumber.head {literal : List Char} (hliteral : IsNumber literal) :
    ∃ c tail, literal = c :: tail ∧ (c = '-' ∨ '0' ≤ c ∧ c ≤ '9') := by
  obtain ⟨minus, whole, fraction, exponent, rfl, hminus, ⟨hwhole, hdigits⟩, -⟩ := hliteral
  rcases hminus with rfl | rfl
  · obtain ⟨c, tail, rfl⟩ := List.exists_cons_of_ne_nil hwhole
    exact ⟨c, tail ++ fraction ++ exponent, by simp, .inr (hdigits c (List.mem_cons_self ..))⟩
  · exact ⟨'-', whole ++ fraction ++ exponent, by simp, .inl rfl⟩

theorem IsNumber.ne_of_head {c : Char} {input literal rest : List Char}
    (hliteral : IsNumber literal) (hc : ¬ (c = '-' ∨ '0' ≤ c ∧ c ≤ '9')) :
    c :: input ≠ literal ++ rest := by
  intro hinput
  obtain ⟨d, tail, rfl, hd⟩ := hliteral.head
  obtain ⟨rfl, -⟩ := List.cons.inj hinput
  exact hc hd

theorem IsNumber.solid {literal rest : List Char} (hliteral : IsNumber literal) :
    Solid (literal ++ rest) := by
  obtain ⟨c, tail, rfl, hc⟩ := hliteral.head
  rintro d hd hblank
  obtain rfl : c = d := by simpa using hd
  simp only [IsBlank, List.mem_cons, List.not_mem_nil, or_false] at hblank
  rcases hblank with rfl | rfl | rfl | rfl <;> revert hc <;> decide

end Json

end StyleDoc
