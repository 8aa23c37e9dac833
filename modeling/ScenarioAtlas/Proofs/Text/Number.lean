import ScenarioAtlas.Proofs.Text.Blank
import ScenarioAtlas.Text.Digit

/-!
# Numbers written and read

A number is written with ASCII digits only and is read back from them. So a number in front of a
character that is no digit can be told from all that follows.
-/

namespace ScenarioAtlas.Text

set_option autoImplicit false

theorem isDigit_of_mem_writeNumber {n : Nat} {c : Char} (h : c ∈ writeNumber n) :
    c.isDigit = true :=
  Nat.isDigit_of_mem_toDigits (by omega) (by omega) h

theorem writeNumber_ne_nil (n : Nat) : writeNumber n ≠ [] := Nat.toDigits_ne_nil

theorem digitsValue_writeNumber (n : Nat) : digitsValue (writeNumber n) = n :=
  Nat.ofDigitChars_ten_toDigits

theorem writeNumber_injective : Function.Injective writeNumber := by
  intro m n h
  rw [← digitsValue_writeNumber m, h, digitsValue_writeNumber]

theorem not_mem_writeNumber {n : Nat} {c : Char} (h : c.isDigit = false) : c ∉ writeNumber n := by
  intro hmem
  rw [isDigit_of_mem_writeNumber hmem] at h
  cases h

theorem colon_not_mem_writeNumber (n : Nat) : ':' ∉ writeNumber n := not_mem_writeNumber rfl

theorem toNat_of_isDigit {c : Char} (h : c.isDigit = true) : 48 ≤ c.toNat ∧ c.toNat ≤ 57 := by
  simp only [Char.isDigit, ge_iff_le, UInt32.le_iff_toNat_le, Bool.and_eq_true,
    decide_eq_true_eq] at h
  exact h

theorem isDecimalDigit_of_isDigit {c : Char} (h : c.isDigit = true) : isDecimalDigit c = true := by
  have hrange := toNat_of_isDigit h
  exact List.any_eq_true.mpr ⟨0x30, List.mem_cons_self, by simpa using hrange⟩

theorem isDigitRun_writeNumber (n : Nat) : isDigitRun (writeNumber n) = true := by
  simp only [isDigitRun, Bool.and_eq_true, Bool.not_eq_true', List.isEmpty_eq_false_iff,
    List.all_eq_true]
  exact ⟨writeNumber_ne_nil n,
    fun c hc => isDecimalDigit_of_isDigit (isDigit_of_mem_writeNumber hc)⟩

theorem not_mem_of_isDigitRun {s : List Char} {c : Char} (h : isDigitRun s = true)
    (hc : isDecimalDigit c = false) : c ∉ s := by
  intro hmem
  rw [isDigitRun, Bool.and_eq_true, List.all_eq_true] at h
  have hdigit := h.2 c hmem
  rw [hc] at hdigit
  cases hdigit

theorem ne_nil_of_isDigitRun {s : List Char} (h : isDigitRun s = true) : s ≠ [] := by
  rintro rfl
  cases h

theorem not_suffix_of_isDigitRun {ending digits : List Char} {c : Char}
    (hdigits : isDigitRun digits = true) (hlast : ending.getLast? = some c)
    (hc : isDecimalDigit c = false) (front : List Char) : ¬ ending <:+ front ++ digits := by
  rintro ⟨before, hbefore⟩
  have hsame := congrArg List.getLast? hbefore
  rw [List.getLast?_append_of_ne_nil _ (by rintro rfl; cases hlast), hlast,
    List.getLast?_append_of_ne_nil _ (ne_nil_of_isDigitRun hdigits)] at hsame
  exact not_mem_of_isDigitRun hdigits hc (List.mem_of_getLast? hsame.symm)

theorem isBlank_of_isDigit {c : Char} (h : c.isDigit = true) : isBlank c = false := by
  have hrange := toNat_of_isDigit h
  simp only [isBlank, Bool.or_eq_false_iff, Bool.and_eq_false_iff, decide_eq_false_iff_not,
    beq_eq_false_iff_ne]
  omega

theorem trim_eq_self {s : List Char} (h : ∀ c ∈ s, isBlank c = false) : trim s = s :=
  trim_eq_self_of_ends (fun c hc => h c (List.mem_of_head? hc))
    fun c hc => h c (List.mem_of_getLast? hc)

theorem trim_writeNumber (n : Nat) : trim (writeNumber n) = writeNumber n :=
  trim_eq_self fun _ hc => isBlank_of_isDigit (isDigit_of_mem_writeNumber hc)

theorem readNumber?_writeNumber_eq (n : Nat) :
    readNumber? (writeNumber n) = if n < numberBound then some n else none := by
  have hdigits : readDigits? (writeNumber n) = if n < numberBound then some n else none := by
    have hall : (writeNumber n).all Char.isDigit = true :=
      List.all_eq_true.mpr fun c hc => isDigit_of_mem_writeNumber hc
    simp [readDigits?, writeNumber_ne_nil, hall, digitsValue_writeNumber]
  unfold readNumber?
  split
  case h_1 s heq =>
    have hplus : '+' ∈ writeNumber n := by simp [heq]
    exact absurd hplus (not_mem_writeNumber (by decide))
  case h_2 => exact hdigits

/-- A number below the bound is read back. -/
theorem readNumber?_writeNumber {n : Nat} (h : n < numberBound) :
    readNumber? (writeNumber n) = some n := by
  rw [readNumber?_writeNumber_eq, if_pos h]

theorem eq_of_readNumber?_writeNumber {m n : Nat} (h : readNumber? (writeNumber n) = some m) :
    m = n := by
  rw [readNumber?_writeNumber_eq, Option.ite_none_right_eq_some] at h
  exact (Option.some.inj h.2).symm

/-- What is read as a number ends in a run of ASCII digits, with no more than a plus sign in front
of it. -/
theorem exists_digits_of_readNumber? {s : List Char} {n : Nat} (h : readNumber? s = some n) :
    ∃ sign digits, s = sign ++ digits ∧ (sign = [] ∨ sign = ['+']) ∧ digits ≠ [] ∧
      ∀ c ∈ digits, c.isDigit = true := by
  have hdigits {t : List Char} (ht : readDigits? t = some n) :
      t ≠ [] ∧ ∀ c ∈ t, c.isDigit = true := by
    rw [readDigits?, Option.ite_none_right_eq_some, Bool.and_eq_true, Bool.and_eq_true,
      List.all_eq_true] at ht
    exact ⟨by simpa using ht.1.1.1, ht.1.1.2⟩
  unfold readNumber? at h
  split at h
  case h_1 t => exact ⟨['+'], t, rfl, .inr rfl, hdigits h⟩
  case h_2 => exact ⟨[], s, rfl, .inl rfl, hdigits h⟩

theorem not_mem_of_readNumber? {s : List Char} {n : Nat} {c : Char} (h : readNumber? s = some n)
    (hdigit : c.isDigit = false) (hplus : c ≠ '+') : c ∉ s := by
  obtain ⟨sign, digits, rfl, hsign, -, hdigits⟩ := exists_digits_of_readNumber? h
  rw [List.mem_append, not_or]
  refine ⟨?_, fun hmem => ?_⟩
  · rcases hsign with rfl | rfl
    · exact List.not_mem_nil
    · exact fun hmem => hplus (List.mem_singleton.mp hmem)
  · rw [hdigits c hmem] at hdigit
    cases hdigit

theorem not_suffix_of_readNumber? {ending s : List Char} {n : Nat} {c : Char}
    (h : readNumber? s = some n) (hlast : ending.getLast? = some c)
    (hc : isDecimalDigit c = false) (front : List Char) : ¬ ending <:+ front ++ s := by
  obtain ⟨sign, digits, rfl, -, hne, hdigits⟩ := exists_digits_of_readNumber? h
  have hrun : isDigitRun digits = true := by
    rw [isDigitRun, Bool.and_eq_true, List.all_eq_true]
    exact ⟨by simpa using hne, fun d hd => isDecimalDigit_of_isDigit (hdigits d hd)⟩
  rw [← List.append_assoc]
  exact not_suffix_of_isDigitRun hrun hlast hc _

theorem trim_of_readNumber? {s : List Char} {n : Nat} (h : readNumber? s = some n) :
    trim s = s := by
  obtain ⟨sign, digits, rfl, hsign, -, hdigits⟩ := exists_digits_of_readNumber? h
  refine trim_eq_self fun c hc => ?_
  rcases List.mem_append.mp hc with hc | hc
  · rcases hsign with rfl | rfl
    · cases hc
    · rw [List.mem_singleton.mp hc]
      decide
  · exact isBlank_of_isDigit (hdigits c hc)

end ScenarioAtlas.Text
