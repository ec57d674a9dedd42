import CamelLint.Proofs.Toml.Grammar
import CamelLint.Proofs.Xml.Tags
import Mathlib.Tactic.SplitIfs

/-! The tokens of written texts. A string or a bare key is one token; but where it ends is
seen only at what follows, since two quotes may be the first of three. Texts are
therefore put together at punctuation, which ends every token before it. -/

namespace CamelLint.Toml

open Text (digitValue?)
open Xml (Numeral)

namespace Lex

open LexMode

/-- The scanner has these tokens, in reverse order, if punctuation follows or nothing. -/
structure Holds (s : Lex) (ts : List Token) : Prop where
  step_eq : ∀ c, (punctuation? c).isSome = true → s.step c = stepBetween ts c
  tokens?_eq : s.tokens? = some ts.reverse

theorem holds_between (ts : List Token) : Holds (reading between ts) ts := ⟨fun _ _ => rfl, rfl⟩

theorem holds_word (done : List Char) (ts : List Token) :
    Holds (reading (word done) ts) (.word done.reverse :: ts) := by
  refine ⟨?_, rfl⟩
  intro c hc
  have hends : endsWord c = true := by simp [endsWord, hc]
  rw [step, stepMode, if_pos hends]

theorem holds_twoQuotes (ts : List Token) :
    Holds (reading (twoQuotes '"') ts) (.string "" false :: ts) := by
  refine ⟨?_, rfl⟩
  intro c hc
  have hne : c ≠ '"' := by
    rintro rfl
    exact absurd hc (by decide)
  rw [step, stepMode, if_neg hne]

end Lex

/-- Where no token is open, the text is read as the tokens. -/
def Lexes (cs : List Char) (ts : List Token) : Prop :=
  ∀ done, ((Lex.reading .between done).run cs).Holds (ts.reverse ++ done)

theorem lexes_nil : Lexes [] [] := Lex.holds_between

/-- Punctuation between two texts parts their tokens. -/
theorem Lexes.punctuated {cs ds : List Char} {ts us : List Token} {c : Char} {t : Token}
    (h : Lexes cs ts) (hc : Lex.punctuation? c = some t) (hd : Lexes ds us) :
    Lexes (cs ++ c :: ds) (ts ++ t :: us) := by
  intro done
  have hstep : ((Lex.reading .between done).run cs).step c =
      .reading .between (t :: (ts.reverse ++ done)) := by
    rw [(h done).step_eq c (by rw [hc]; rfl), Lex.stepBetween, hc]
  rw [Lex.run_append, Lex.run_cons, hstep]
  simpa using hd (t :: (ts.reverse ++ done))

/-! ### Strings -/

namespace Lex

open LexMode

def basic : Quotation := ⟨'"', false⟩

theorem escapedChar?_of_mem {l c : Char} (h : (l, c) ∈ letterEscapes) :
    escapedChar? l = some c := by
  have hall : letterEscapes.all (fun e => escapedChar? e.1 = some e.2) = true := by decide
  exact of_decide_eq_true (List.all_eq_true.mp hall (l, c) h)

theorem codeDigits?_of_mem {l : Char} {n : Nat} (h : (l, n) ∈ codeEscapes) :
    escapedChar? l = none ∧ codeDigits? l = some n ∧ 0 < n := by
  have hall : codeEscapes.all (fun e => escapedChar? e.1 = none ∧ codeDigits? e.1 = some e.2 ∧
      0 < e.2) = true := by decide
  exact of_decide_eq_true (List.all_eq_true.mp hall (l, n) h)

theorem stepCode_last {q : Quotation} {ts : List Token} {done : List Char} {value v : Nat}
    {c d : Char} (hv : digitValue? d = some v) (hc : 16 * value + v = c.toNat) :
    stepCode q 1 value ts done d = reading (text q 0 (c :: done)) ts := by
  have hvalid : (16 * value + v).isValidChar := hc ▸ c.valid
  have hchar : ∀ n (h : n.isValidChar), n = c.toNat → Char.ofNatAux n h = c := by
    rintro _ _ rfl
    rfl
  rw [stepCode, hv]
  dsimp only
  rw [if_neg (by omega), dif_pos hvalid, hchar _ hvalid hc]

theorem stepCode_more {q : Quotation} {ts : List Token} {done : List Char} {n value v : Nat}
    {d : Char} (hv : digitValue? d = some v) (hn : 1 < n) :
    stepCode q n value ts done d = reading (code q (n - 1) (16 * value + v) done) ts := by
  rw [stepCode, hv]
  exact if_pos hn

/-- The digits of an escape by number add up to its character. -/
theorem run_code {q : Quotation} {ts : List Token} {done digits : List Char} {c : Char}
    (value : Nat) (hn : digits ≠ []) (hd : ∀ d ∈ digits, (digitValue? d).isSome = true)
    (hc : digits.foldl (fun n d => 16 * n + (digitValue? d).getD 0) value = c.toNat) :
    (reading (code q digits.length value done) ts).run digits =
      reading (text q 0 (c :: done)) ts := by
  induction digits generalizing value with
  | nil => exact absurd rfl hn
  | cons d r ih =>
    obtain ⟨v, hv⟩ := Option.isSome_iff_exists.mp (hd d List.mem_cons_self)
    rw [List.foldl_cons, hv, Option.getD_some] at hc
    rw [run_cons, step, stepMode]
    cases r with
    | nil => exact stepCode_last hv hc
    | cons e r =>
      rw [stepCode_more hv (by simp)]
      exact ih _ (List.cons_ne_nil e r) (fun x hx => hd x (List.mem_cons_of_mem d hx)) hc

theorem isTextChar_of_literal {c : Char} (h : c = '\t' ∨ isControl c = false) :
    isTextChar c = true := by
  rcases h with rfl | h
  · decide
  · simp only [isControl, Bool.or_eq_false_iff, decide_eq_false_iff_not] at h
    simp only [isTextChar, Bool.or_eq_true, Bool.and_eq_true, decide_eq_true_eq]
    exact .inr ⟨by omega, h.2⟩

theorem step_text {c : Char} (hq : c ≠ '"') (ts : List Token) (done : List Char) :
    (reading (text basic 0 done) ts).step c = stepText basic ts done c := by
  have hne : c ≠ basic.quote := hq
  rw [step, stepMode, stepString, if_neg hne, if_neg (by omega)]
  rfl

theorem stepText_backslash (ts : List Token) (done : List Char) :
    stepText basic ts done '\\' = reading (escape basic done) ts := by
  rw [stepText, if_pos ⟨rfl, rfl⟩]

/-- What is written between quotes is read as the text that it writes. -/
theorem run_escapes {s raw : List Char} (h : Escapes s raw) (ts : List Token) (done : List Char) :
    (reading (text basic 0 done) ts).run raw = reading (text basic 0 (s.reverse ++ done)) ts := by
  induction h generalizing done with
  | nil => rfl
  | @literal c s raw hq hb hc hs ih =>
    have hstep : stepText basic ts done c = reading (text basic 0 (c :: done)) ts := by
      rw [stepText, if_neg (by simp [hb]), if_pos (isTextChar_of_literal hc)]
    rw [run_cons, step_text hq, hstep, ih]
    simp
  | @letter l c s raw h hs ih =>
    have hescape : (reading (escape basic done) ts).step l =
        reading (text basic 0 (c :: done)) ts := by
      rw [step, stepMode, stepEscape, escapedChar?_of_mem h]
    rw [run_cons, step_text (by decide), stepText_backslash, run_cons, hescape, ih]
    simp
  | @code l c s digits raw h hn hs ih =>
    obtain ⟨hletter, hdigits, hpos⟩ := codeDigits?_of_mem h
    have hescape : (reading (escape basic done) ts).step l =
        reading (code basic digits.length 0 done) ts := by
      rw [step, stepMode, stepEscape, hletter, hdigits]
    have hall : ∀ d ∈ digits, (digitValue? d).isSome = true := by
      intro d hd
      obtain ⟨v, -, hv⟩ := hn.digits (by omega) d hd
      rw [hv, Option.isSome_some]
    have hvalue := hn.ofDigits_eq (by omega)
    rw [run_cons, step_text (by decide), stepText_backslash, run_cons, hescape, run_append,
      run_code 0 hn.ne_nil hall hvalue, ih]
    simp

/-- Written text does not begin with a quote. -/
theorem ne_quote_of_escapes {c : Char} {s raw : List Char} (h : Escapes s (c :: raw)) :
    c ≠ '"' := by
  cases h with
  | literal hq => exact hq
  | letter => decide
  | code => decide

end Lex

theorem StringText.lexes {s : String} {cs : List Char} (h : StringText s cs) :
    Lexes cs [.string s false] := by
  intro done
  obtain ⟨hraw⟩ := h
  rename_i raw
  have hopen : (Lex.reading .between done).step '"' = .reading (.oneQuote '"') done := rfl
  rw [Lex.run_cons, hopen]
  cases raw with
  | nil =>
    have hs : s = "" := by
      rw [← String.toList_inj]
      generalize s.toList = t at hraw
      cases hraw
      rfl
    subst hs
    exact Lex.holds_twoQuotes done
  | cons c r =>
    have hne := Lex.ne_quote_of_escapes hraw
    -- the first character decides that these are not two quotes
    have hfirst : (Lex.reading (.oneQuote '"') done).step c =
        (Lex.reading (.text Lex.basic 0 []) done).step c := by
      rw [Lex.step_text hne, Lex.step, Lex.stepMode, if_neg hne]
      rfl
    have hclose : (Lex.reading (.text Lex.basic 0 s.toList.reverse) done).step '"' =
        .reading .between (.string s false :: done) := by
      simp [Lex.step, Lex.stepMode, Lex.stepString, Lex.basic, Lex.stringToken]
    have hrun := Lex.run_escapes hraw done []
    rw [Lex.run_cons, List.append_nil] at hrun
    rw [List.cons_append, Lex.run_cons, hfirst, Lex.run_append, hrun, Lex.run_cons, hclose]
    exact Lex.holds_between _

/-! ### Keys -/

theorem isKeyChar_spec {c : Char} (h : KeyParts.isKeyChar c = true) :
    Lex.punctuation? c = none ∧ c ≠ '\r' ∧ c ≠ '#' ∧ c ≠ '"' ∧ c ≠ '\'' := by
  have hnone : Lex.punctuation? c = none := by
    unfold Lex.punctuation?
    split
    case h_11 => rfl
    all_goals exact absurd h (by decide)
  refine ⟨hnone, ?_, ?_, ?_, ?_⟩ <;> rintro rfl <;> exact absurd h (by decide)

namespace Lex

open LexMode

theorem run_word {cs : List Char} (h : ∀ c ∈ cs, KeyParts.isKeyChar c = true) (ts : List Token)
    (done : List Char) :
    (reading (word done) ts).run cs = reading (word (cs.reverse ++ done)) ts := by
  induction cs generalizing done with
  | nil => rfl
  | cons c r ih =>
    obtain ⟨hp, hr, hs, -⟩ := isKeyChar_spec (h c List.mem_cons_self)
    have hends : ¬ endsWord c = true := by simp [endsWord, hp, hr, hs]
    rw [run_cons, step, stepMode, if_neg hends, ih fun d hd => h d (List.mem_cons_of_mem c hd)]
    simp

end Lex

theorem lexes_word {cs : List Char} (hn : cs ≠ [])
    (h : ∀ c ∈ cs, KeyParts.isKeyChar c = true) : Lexes cs [.word cs] := by
  intro done
  obtain ⟨c, r, rfl⟩ := List.exists_cons_of_ne_nil hn
  obtain ⟨hp, hr, hs, hd, hq⟩ := isKeyChar_spec (h c List.mem_cons_self)
  have hfirst : (Lex.reading .between done).step c = .reading (.word [c]) done := by
    rw [Lex.step, Lex.stepMode, Lex.stepBetween, hp]
    simp [hr, hs, hd, hq]
  rw [Lex.run_cons, hfirst, Lex.run_word fun d hd => h d (List.mem_cons_of_mem c hd)]
  have hword := Lex.holds_word (r.reverse ++ [c]) done
  simpa using hword

/-- A key is one token, which is the part of a path. -/
theorem KeyText.lexes {s : String} {cs : List Char} (h : KeyText s cs) :
    ∃ t, Lexes cs [t] ∧ KeyParts.part? t = some s := by
  cases h with
  | quoted h => exact ⟨_, h.lexes, rfl⟩
  | bare hn h =>
    refine ⟨_, lexes_word (by simpa using hn) h, ?_⟩
    have hall : s.toList.all KeyParts.isKeyChar = true := List.all_eq_true.mpr h
    rw [KeyParts.part?, if_pos hall, String.ofList_toList]

end CamelLint.Toml
