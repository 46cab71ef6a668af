import Mathlib.Data.List.TakeWhile
import ArenaMemory.Config.Text
import ArenaMemory.Proofs.Binary64.Shortest
import ArenaMemory.Proofs.Toml.Lines

namespace ArenaMemory

namespace Toml

section Digits

variable {isDigit : Char → Bool} {word digits whole places : List Char} {c : Char} {n : Nat}

theorem digitRun?_eq_some (hne : word ≠ []) (hdigits : ∀ c ∈ word, c.isDigit) :
    digitRun? isDecimalDigit word = some word := by
  fun_induction digitRun? isDecimalDigit word with
  | case1 => exact absurd rfl hne
  | case2 c hc => rfl
  | case3 c hc => exact absurd (hdigits c (by simp)) hc
  -- An underscore is no digit, so the two cases that step over one do not arise.
  | case4 c rest hc ih => exact absurd (hdigits '_' (by simp)) (by decide)
  | case5 c rest hc => exact absurd (hdigits '_' (by simp)) (by decide)
  | case6 c rest hrest hmark hc ih =>
    rw [ih (by rintro rfl; exact hrest rfl) fun d hd => hdigits d (List.mem_cons_of_mem c hd)]
    rfl
  | case7 c rest hrest hmark hc => exact absurd (hdigits c (by simp)) hc

theorem digitRun?_eq_none (hmem : c ∈ word) (hc : isDigit c = false) (hmark : c ≠ '_') :
    digitRun? isDigit word = none := by
  fun_induction digitRun? isDigit word with
  | case1 => rfl
  | case2 d hd =>
    rw [List.mem_singleton] at hmem
    exact absurd (hmem ▸ hd) (Bool.eq_false_iff.1 hc)
  | case3 d hd => rfl
  | case4 d rest hd ih =>
    obtain rfl | hmem := List.mem_cons.1 hmem
    · exact absurd hd (Bool.eq_false_iff.1 hc)
    · rw [ih ((List.mem_cons.1 hmem).resolve_left hmark)]
      rfl
  | case5 d rest hd => rfl
  | case6 d rest hrest hunder hd ih =>
    obtain rfl | hmem := List.mem_cons.1 hmem
    · exact absurd hd (Bool.eq_false_iff.1 hc)
    · rw [ih hmem]
      rfl
  | case7 d rest hrest hunder hd => rfl

theorem wholeRun?_eq_some (hne : word ≠ []) (hdigits : ∀ c ∈ word, c.isDigit)
    (hleading : word.head? = some '0' → word = ['0']) : wholeRun? word = some word := by
  rw [wholeRun?, digitRun?_eq_some hne hdigits]
  split
  next heq =>
    obtain rfl := Option.some.inj heq
    exact absurd (hleading rfl) (by simp)
  next => rfl

theorem splitSign_eq (hminus : word.head? ≠ some '-') (hplus : word.head? ≠ some '+') :
    splitSign word = (false, word) := by
  rw [splitSign.eq_def]
  split
  next => exact absurd rfl hminus
  next => exact absurd rfl hplus
  next => rfl

theorem integer?_eq (hmarks : ∀ d ∈ ['x', 'o', 'b'], d ∉ word) :
    integer? word = (wholeRun? (splitSign word).2).bind fun digits =>
      fits? (if (splitSign word).1 then -(ofDigits 10 digits digitValue : Int)
        else (ofDigits 10 digits digitValue : Int)) := by
  rw [integer?.eq_def]
  split
  next => exact absurd (by simp) (hmarks 'x' (by simp))
  next => exact absurd (by simp) (hmarks 'o' (by simp))
  next => exact absurd (by simp) (hmarks 'b' (by simp))
  next => rfl

theorem head?_ne_of_isDigit (hdigits : ∀ c ∈ word, c.isDigit) (hc : c.isDigit = false) :
    word.head? ≠ some c :=
  fun hhead => ne_of_class (hdigits c (List.mem_of_mem_head? hhead)) hc rfl

theorem integer?_toDigits (hn : n < 0x8000000000000000) :
    integer? (Nat.toDigits 10 n) = some (n : Int) := by
  have hleading : (Nat.toDigits 10 n).head? = some '0' → Nat.toDigits 10 n = ['0'] := by
    intro hhead
    obtain rfl | hpositive := Nat.eq_zero_or_pos n
    · rfl
    · exact absurd hhead (head?_toDigits hpositive)
  have hmarks : ∀ d ∈ ['x', 'o', 'b'], d ∉ Nat.toDigits 10 n := fun d hd hmem => by
    simp only [List.mem_cons, List.not_mem_nil, or_false] at hd
    obtain rfl | rfl | rfl := hd <;> exact absurd (isDigit_toDigits _ hmem) (by decide)
  rw [integer?_eq hmarks,
    splitSign_eq (head?_ne_of_isDigit isDigit_toDigits rfl) (head?_ne_of_isDigit isDigit_toDigits rfl),
    wholeRun?_eq_some Nat.toDigits_ne_nil isDigit_toDigits hleading, Option.bind_some,
    ofDigits_eq isDigit_toDigits, Nat.ofDigitChars_toDigits (by decide) (by decide)]
  simp only [Bool.false_eq_true, if_false]
  exact if_pos ⟨by omega, by omega⟩

theorem mem_splitSign (hmem : c ∈ word) (hminus : c ≠ '-') (hplus : c ≠ '+') :
    c ∈ (splitSign word).2 := by
  rw [splitSign.eq_def]
  split
  next => exact (List.mem_cons.1 hmem).resolve_left hminus
  next => exact (List.mem_cons.1 hmem).resolve_left hplus
  next => exact hmem

theorem integer?_eq_none (hmarks : ∀ d ∈ ['x', 'o', 'b'], d ∉ word) (hmem : c ∈ word)
    (hc : c.isDigit = false) (hsigns : c ∉ ['_', '-', '+']) : integer? word = none := by
  simp only [List.mem_cons, List.not_mem_nil, or_false, not_or] at hsigns
  have hrun : digitRun? isDecimalDigit (splitSign word).2 = none :=
    digitRun?_eq_none (mem_splitSign hmem hsigns.2.1 hsigns.2.2) hc hsigns.1
  rw [integer?_eq hmarks, wholeRun?, hrun]
  rfl

end Digits

section Point

variable {x : Binary64} {whole places : List Char}

theorem mantissa?_eq_some (hwhole : wholeRun? whole = some whole)
    (hdigits : ∀ c ∈ whole ++ places, c.isDigit) (hplaces : places ≠ []) :
    mantissa? (whole ++ '.' :: places) = some (whole, places) := by
  obtain ⟨hdigitsWhole, hdigitsPlaces⟩ := List.forall_mem_append.1 hdigits
  have hpoint : ∀ c ∈ whole, decide (c ≠ '.') = true := fun c hc => by
    rw [decide_eq_true_eq]
    exact ne_of_class (hdigitsWhole c hc) rfl
  rw [mantissa?, List.dropWhile_append_of_pos hpoint, List.takeWhile_append_of_pos hpoint]
  simp [hwhole, digitRun?_eq_some hplaces hdigitsPlaces]

theorem splitSign_signText {rest : List Char} (hminus : rest.head? ≠ some '-')
    (hplus : rest.head? ≠ some '+') : splitSign (x.signText ++ rest) = (x.isNegative, rest) := by
  rw [Binary64.signText]
  cases x.isNegative with
  | false => exact splitSign_eq hminus hplus
  | true => rfl

theorem float?_written (hfinite : x.magnitude.toNat < Binary64.infinityBits)
    (hwritten : x.shortest.Written whole places) (hplaces : places ≠ []) :
    float? (x.signText ++ (whole ++ '.' :: places)) = some x := by
  obtain ⟨hdigitsWhole, hdigitsPlaces⟩ := List.forall_mem_append.1 hwritten.isDigit
  have hhead : ∀ c, c.isDigit = false → (whole ++ '.' :: places).head? ≠ some c := fun c hc => by
    rw [List.head?_append_of_ne_nil _ hwritten.whole_ne_nil]
    exact head?_ne_of_isDigit hdigitsWhole hc
  have hdigit : ∀ c : Char, c.isDigit → (!isExponentMark c) = true := fun c hc => by
    simp [isExponentMark, ne_of_class hc]
  have hmantissa : ∀ c ∈ whole ++ '.' :: places, (!isExponentMark c) = true :=
    List.forall_mem_append.2 ⟨fun c hc => hdigit c (hdigitsWhole c hc),
      List.forall_mem_cons.2 ⟨rfl, fun c hc => hdigit c (hdigitsPlaces c hc)⟩⟩
  have hword : whole ++ '.' :: places ≠ ['i', 'n', 'f'] ∧ whole ++ '.' :: places ≠ ['n', 'a', 'n'] :=
    ⟨fun he => hhead 'i' rfl (by rw [he]; rfl), fun he => hhead 'n' rfl (by rw [he]; rfl)⟩
  have hwhole := wholeRun?_eq_some hwritten.whole_ne_nil hdigitsWhole hwritten.leading
  rw [float?, splitSign_signText (hhead '-' rfl) (hhead '+' rfl)]
  dsimp only
  rw [if_neg hword.1, if_neg hword.2, List.takeWhile_eq_self_iff.2 hmantissa,
    List.dropWhile_eq_nil_iff.2 hmantissa, mantissa?_eq_some hwhole hwritten.isDigit hplaces]
  have hread := Binary64.ofDecimal_of_value hfinite hwritten.value_eq
  simp [hread, Binary64.ne_infinity hfinite]

/-- The text of a finite number has digits on both sides of its point. -/
theorem tomlText_written (hnan : x.isNaN = false) (hinfinite : x.isInfinite = false) :
    ∃ whole places, x.shortest.Written whole places ∧ places ≠ [] ∧
      x.tomlText = x.signText ++ (whole ++ '.' :: places) := by
  have hfinite := Binary64.magnitude_lt hnan hinfinite
  obtain ⟨whole, places, hwritten, htext⟩ :=
    Decimal.positional_written (Binary64.shortest_exponent hfinite)
  simp only [Binary64.tomlText, hnan, hinfinite, Bool.false_eq_true, if_false, htext]
  obtain rfl | hplaces := eq_or_ne places []
  · have hpoint : '.' ∉ whole := fun hmem =>
      ne_of_class (hwritten.isDigit '.' (List.mem_append_left _ hmem)) rfl rfl
    exact ⟨whole, ['0'], hwritten.append_zero, by simp, by simp [hpoint]⟩
  · exact ⟨whole, places, hwritten, hplaces, by simp [hplaces]⟩

theorem tomlText_of_isNaN (hnan : x.isNaN = true) : x.tomlText = ['n', 'a', 'n'] := if_pos hnan

theorem tomlText_of_isInfinite (hnan : x.isNaN = false) (hinfinite : x.isInfinite = true) :
    x.tomlText = x.signText ++ ['i', 'n', 'f'] := by
  simp only [Binary64.tomlText, hnan, hinfinite, Bool.false_eq_true, if_false, if_true]

theorem mem_tomlText (x : Binary64) :
    ∀ c ∈ x.tomlText, c.isDigit ∨ c ∈ ['-', '.', 'i', 'n', 'f', 'a'] := by
  have hsign : ∀ c ∈ x.signText, c.isDigit ∨ c ∈ ['-', '.', 'i', 'n', 'f', 'a'] := by
    rw [Binary64.signText]
    split <;> simp
  cases hnan : x.isNaN with
  | true =>
    rw [tomlText_of_isNaN hnan]
    simp
  | false =>
    cases hinfinite : x.isInfinite with
    | true =>
      rw [tomlText_of_isInfinite hnan hinfinite]
      exact List.forall_mem_append.2 ⟨hsign, by simp⟩
    | false =>
      obtain ⟨whole, places, hwritten, -, htext⟩ := tomlText_written hnan hinfinite
      obtain ⟨hwhole, hplaces⟩ := List.forall_mem_append.1 hwritten.isDigit
      rw [htext]
      exact List.forall_mem_append.2 ⟨hsign, List.forall_mem_append.2
        ⟨fun c hc => .inl (hwhole c hc), List.forall_mem_cons.2
          ⟨.inr (by simp), fun c hc => .inl (hplaces c hc)⟩⟩⟩

theorem float?_tomlText (x : Binary64) : float? x.tomlText = some x.canonical := by
  cases hnan : x.isNaN with
  | true =>
    rw [tomlText_of_isNaN hnan, Binary64.canonical_of_isNaN hnan]
    rfl
  | false =>
    rw [Binary64.canonical_of_not_isNaN hnan]
    cases hinfinite : x.isInfinite with
    | true =>
      rw [tomlText_of_isInfinite hnan hinfinite, float?, splitSign_signText (by simp) (by simp)]
      exact congrArg some (Binary64.ofMagnitude_infinityBits hinfinite)
    | false =>
      obtain ⟨whole, places, hwritten, hplaces, htext⟩ := tomlText_written hnan hinfinite
      rw [htext, float?_written (Binary64.magnitude_lt hnan hinfinite) hwritten hplaces]

/-- Every text has a character that is neither digit nor sign, so none is an integer. -/
theorem exists_mem_tomlText (x : Binary64) : ∃ c ∈ x.tomlText, c = '.' ∨ c = 'n' := by
  cases hnan : x.isNaN with
  | true => exact ⟨'n', by simp [tomlText_of_isNaN hnan], .inr rfl⟩
  | false =>
    cases hinfinite : x.isInfinite with
    | true => exact ⟨'n', by simp [tomlText_of_isInfinite hnan hinfinite], .inr rfl⟩
    | false =>
      obtain ⟨whole, places, -, -, htext⟩ := tomlText_written hnan hinfinite
      exact ⟨'.', by simp [htext], .inl rfl⟩

/-- The text of a floating point number is read as the number. -/
theorem scalar?_tomlText (x : Binary64) : scalar? x.tomlText = some (.float x.canonical) := by
  have hletters : ∀ d ∈ ['x', 'o', 'b', 't', 'l'], d ∉ x.tomlText := fun d hd hmem => by
    have hcharacter := mem_tomlText x d hmem
    simp only [List.mem_cons, List.not_mem_nil, or_false] at hd
    obtain rfl | rfl | rfl | rfl | rfl := hd <;> exact absurd hcharacter (by decide)
  have hmarks : ∀ d ∈ ['x', 'o', 'b'], d ∉ x.tomlText := fun d hd =>
    hletters d (List.mem_append_left ['t', 'l'] hd)
  have hinteger : integer? x.tomlText = none := by
    obtain ⟨c, hmem, rfl | rfl⟩ := exists_mem_tomlText x
    · exact integer?_eq_none hmarks hmem rfl (by decide)
    · exact integer?_eq_none hmarks hmem rfl (by decide)
  have htrue : x.tomlText ≠ ['t', 'r', 'u', 'e'] := fun he =>
    hletters 't' (by simp) (by simp [he])
  have hfalse : x.tomlText ≠ ['f', 'a', 'l', 's', 'e'] := fun he =>
    hletters 'l' (by simp) (by simp [he])
  rw [scalar?, if_neg htrue, if_neg hfalse, hinteger, float?_tomlText]

theorem scalar?_toDigits {n : Nat} (hn : n < 0x8000000000000000) :
    scalar? (Nat.toDigits 10 n) = some (.integer n) := by
  have hname : ∀ {c : Char} {rest : List Char}, c.isDigit = false → Nat.toDigits 10 n ≠ c :: rest :=
    fun hc he => head?_ne_of_isDigit isDigit_toDigits hc (by rw [he]; rfl)
  rw [scalar?, if_neg (hname rfl), if_neg (hname rfl), integer?_toDigits hn]

end Point

end Toml

end ArenaMemory
