import AtomProbe.Proofs.Decimal.Text

/-!
# `AtomProbe.Proofs.Decimal.Integer`: the numerals of whole numbers

An integer numeral is an optional sign and one or more of the ten digits
(`Denotes`). Leading zeros and the sign of a zero are allowed, blanks and
separators are not.

* `integer?_eq_some_iff`: the numerals are what is read, and each is read
  as the number that it denotes.
* `exists_real?_of_denotes`: a numeral can be read as a real number as
  well, however large it is.
-/

set_option autoImplicit false

namespace AtomProbe.Decimal

/-- One or more of the ten digits. -/
structure IsDigits (cs : List Char) : Prop where
  ne_nil : cs ≠ []
  isDigit : ∀ c ∈ cs, Decimal.isDigit c = true

/-- Which numerals denote which whole number. -/
inductive Denotes : List Char → Int → Prop
  | unsigned {ds : List Char} (h : IsDigits ds) : Denotes ds (Nat.ofDigitChars 10 ds 0 : Nat)
  | plus {ds : List Char} (h : IsDigits ds) : Denotes ('+' :: ds) (Nat.ofDigitChars 10 ds 0 : Nat)
  | minus {ds : List Char} (h : IsDigits ds) :
      Denotes ('-' :: ds) (-(Nat.ofDigitChars 10 ds 0 : Nat))

/-! ### Digits -/

/-- Of the characters only the ten digits have a value in base ten. -/
theorem digit?_ten (c : Char) :
    digit? 10 c = if isDigit c = true then some (c.toNat - 48) else none := by
  have hle (a b : Char) : a ≤ b ↔ a.toNat ≤ b.toNat := UInt32.le_iff_toNat_le
  simp only [digit?, isDigit, Bool.and_eq_true, decide_eq_true_eq, hle, Char.reduceToNat]
  -- the letters follow the nine, and none of them is below ten
  split
  · next h => rw [if_pos (by omega)]
  · split
    · rw [if_neg (by omega)]
    · split
      · rw [if_neg (by omega)]
      · rfl

theorem accumulate_eq_some_iff {cs : List Char} {acc n : Nat} :
    accumulate 10 acc cs = some n ↔
      (∀ c ∈ cs, isDigit c = true) ∧ Nat.ofDigitChars 10 cs acc = n := by
  induction cs generalizing acc with
  | nil => simp [accumulate, Nat.ofDigitChars]
  | cons c cs ih =>
    rw [accumulate, digit?_ten, List.forall_mem_cons]
    by_cases hc : isDigit c = true
    · rw [if_pos hc, Option.bind_some, ih, Nat.mul_comm acc 10]
      simp [hc, Nat.ofDigitChars]
    · simp [hc]

theorem natural?_eq_some_iff {cs : List Char} {n : Nat} :
    natural? 10 cs = some n ↔ IsDigits cs ∧ Nat.ofDigitChars 10 cs 0 = n := by
  by_cases hcs : cs = []
  · subst hcs
    exact ⟨nofun, fun h => absurd rfl h.1.ne_nil⟩
  · rw [natural?_of_ne_nil hcs, accumulate_eq_some_iff]
    exact and_congr_left fun _ => ⟨fun h => ⟨hcs, h⟩, IsDigits.isDigit⟩

/-- Digits begin with a digit. -/
theorem IsDigits.exists_eq_cons {cs : List Char} (h : IsDigits cs) :
    ∃ d ds, cs = d :: ds ∧ Decimal.isDigit d = true := by
  obtain ⟨d, ds, rfl⟩ := List.exists_cons_of_ne_nil h.ne_nil
  exact ⟨d, ds, rfl, h.isDigit d List.mem_cons_self⟩

theorem integer?_plus (ds : List Char) :
    integer? 10 ('+' :: ds) = (natural? 10 ds).map Int.ofNat := by
  rw [integer?]
  cases natural? 10 ds <;> rfl

theorem integer?_minus (ds : List Char) :
    integer? 10 ('-' :: ds) = (natural? 10 ds).map fun n => -Int.ofNat n := by
  rw [integer?]
  cases natural? 10 ds <;> rfl

/-- Without a sign a numeral is read as its digits. -/
theorem integer?_of_not_sign {cs : List Char} (h : ∀ c ∈ cs.head?, c ≠ '+' ∧ c ≠ '-') :
    integer? 10 cs = (natural? 10 cs).map Int.ofNat := by
  unfold integer?
  split
  · exact absurd rfl (h '+' rfl).1
  · exact absurd rfl (h '-' rfl).2
  · cases natural? 10 cs <;> rfl

/-! ### Numerals -/

/-- What is read as a whole number are the numerals that denote it. -/
theorem integer?_eq_some_iff {cs : List Char} {n : Int} :
    integer? 10 cs = some n ↔ Denotes cs n := by
  constructor
  · intro h
    -- the reader only looks at the first character to tell the sign
    by_cases hsign : ∀ c ∈ cs.head?, c ≠ '+' ∧ c ≠ '-'
    · rw [integer?_of_not_sign hsign] at h
      obtain ⟨m, hm, rfl⟩ := Option.map_eq_some_iff.1 h
      obtain ⟨hds, rfl⟩ := natural?_eq_some_iff.1 hm
      exact .unsigned hds
    · cases cs with
      | nil => exact absurd nofun hsign
      | cons c ds =>
        have hc : c = '+' ∨ c = '-' := by
          by_contra hne
          exact hsign fun d hd => by
            cases hd
            exact not_or.1 hne
        rcases hc with rfl | rfl
        · rw [integer?_plus] at h
          obtain ⟨m, hm, rfl⟩ := Option.map_eq_some_iff.1 h
          obtain ⟨hds, rfl⟩ := natural?_eq_some_iff.1 hm
          exact .plus hds
        · rw [integer?_minus] at h
          obtain ⟨m, hm, rfl⟩ := Option.map_eq_some_iff.1 h
          obtain ⟨hds, rfl⟩ := natural?_eq_some_iff.1 hm
          exact .minus hds
  · intro h
    cases h with
    | unsigned hds =>
      have hread := natural?_eq_some_iff.2 ⟨hds, rfl⟩
      obtain ⟨d, ds, rfl, hd⟩ := hds.exists_eq_cons
      rw [integer?_of_not_sign (by simpa using not_sign_of_isDigit hd), hread]
      rfl
    | plus hds =>
      rw [integer?_plus, natural?_eq_some_iff.2 ⟨hds, rfl⟩]
      rfl
    | minus hds =>
      rw [integer?_minus, natural?_eq_some_iff.2 ⟨hds, rfl⟩]
      rfl

/-- The characters of a numeral are digits, but for a sign in front. -/
theorem Denotes.mem {cs : List Char} {n : Int} (h : Denotes cs n) {c : Char} (hc : c ∈ cs) :
    isDigit c = true ∨ c = '+' ∨ c = '-' := by
  cases h with
  | unsigned hds => exact .inl (hds.isDigit c hc)
  | plus hds =>
    rcases List.mem_cons.1 hc with rfl | hc
    · exact .inr (.inl rfl)
    · exact .inl (hds.isDigit c hc)
  | minus hds =>
    rcases List.mem_cons.1 hc with rfl | hc
    · exact .inr (.inr rfl)
    · exact .inl (hds.isDigit c hc)

/-- A numeral can be read as a real number, however large it is. -/
theorem exists_real?_of_denotes {cs : List Char} {n : Int} (h : Denotes cs n) :
    ∃ x, real? cs = some x := by
  have hread {ds : List Char} (hds : IsDigits ds) :
      ∃ x, unsignedReal? ds = some x := by
    have hnatural := natural?_eq_some_iff.2 ⟨hds, rfl⟩
    obtain ⟨htake, hdrop⟩ := takeWhile_digits hds.isDigit not_digit_of_mem_nil
    rw [List.append_nil] at htake hdrop
    -- neither a point nor an exponent stands behind the digits
    unfold unsignedReal?
    simp [htake, hdrop, hnatural, exponentPart?]
  cases h with
  | unsigned hds =>
    obtain ⟨x, hx⟩ := hread hds
    obtain ⟨d, ds, rfl, hd⟩ := hds.exists_eq_cons
    exact ⟨x, (real?_of_isDigit hd ds).1.trans hx⟩
  | plus hds =>
    obtain ⟨x, hx⟩ := hread hds
    obtain ⟨d, ds, rfl, hd⟩ := hds.exists_eq_cons
    refine ⟨x, ?_⟩
    show (realWord? (d :: ds)).or (unsignedReal? (d :: ds)) = some x
    rw [realWord?_of_isDigit hd, Option.none_or, hx]
  | minus hds =>
    obtain ⟨x, hx⟩ := hread hds
    obtain ⟨d, ds, rfl, hd⟩ := hds.exists_eq_cons
    exact ⟨x.neg, by rw [(real?_of_isDigit hd ds).2, hx]; rfl⟩

end AtomProbe.Decimal
