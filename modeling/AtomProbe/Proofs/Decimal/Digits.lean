import AtomProbe.Decimal.Real

/-!
# `AtomProbe.Proofs.Decimal.Digits`: reading the digits of a number

The digits of a number in a base, in either case of the letters, are
read as the number (`accumulate_digits`). The induction follows
`Nat.toDigits`, from the last digit to the first.
-/

set_option autoImplicit false

namespace AtomProbe.Decimal

theorem accumulate_append (base acc : Nat) (cs ds : List Char) :
    accumulate base acc (cs ++ ds) =
      (accumulate base acc cs).bind fun n => accumulate base n ds := by
  induction cs generalizing acc with
  | nil => rfl
  | cons c cs ih =>
    simp only [List.cons_append, accumulate]
    cases digit? base c with
    | none => rfl
    | some d => exact ih _

/-- A character that is no digit spoils the number. -/
theorem accumulate_eq_none {base : Nat} {c : Char} {cs : List Char} (hc : c ∈ cs)
    (hnot : digit? base c = none) (acc : Nat) : accumulate base acc cs = none := by
  obtain ⟨as, bs, rfl⟩ := List.append_of_mem hc
  rw [accumulate_append]
  cases accumulate base acc as with
  | none => rfl
  | some n => simp [accumulate, hnot]

theorem digit?_digitChar {base d : Nat} (hbase : base ≤ 16) (hd : d < base) :
    digit? base d.digitChar = some d := by
  have h : ∀ b, b < 17 → ∀ e, e < b → digit? b e.digitChar = some e := by decide
  exact h base (Nat.lt_succ_of_le hbase) d hd

theorem digit?_toUpper_digitChar {base d : Nat} (hbase : base ≤ 16) (hd : d < base) :
    digit? base d.digitChar.toUpper = some d := by
  have h : ∀ b, b < 17 → ∀ e, e < b → digit? b e.digitChar.toUpper = some e := by decide
  exact h base (Nat.lt_succ_of_le hbase) d hd

/-- The digits of a number, written by `f`, are read as the number. -/
theorem accumulate_digits {base : Nat} (hbase : 1 < base) {f : Char → Char}
    (hf : ∀ d, d < base → digit? base (f d.digitChar) = some d) (n : Nat) :
    accumulate base 0 ((Nat.toDigits base n).map f) = some n := by
  induction n using Nat.strongRecOn with
  | ind n ih =>
    rw [Nat.toDigits_eq_if hbase]
    split
    · next hn => simp [accumulate, hf n hn]
    · next hn =>
      have hdiv : n / base < n := Nat.div_lt_self (by omega) hbase
      have hmod : n % base < base := Nat.mod_lt n (by omega)
      rw [List.map_append, accumulate_append, ih _ hdiv]
      simp [accumulate, hf _ hmod, Nat.div_add_mod']

/-- The digits of a number are digits of the base. -/
theorem exists_of_mem_toDigits {base : Nat} (hbase : 1 < base) {n : Nat} {c : Char}
    (hc : c ∈ Nat.toDigits base n) : ∃ d, d < base ∧ c = d.digitChar := by
  induction n using Nat.strongRecOn with
  | ind n ih =>
    rw [Nat.toDigits_eq_if hbase] at hc
    split at hc
    · next hn => exact ⟨n, hn, List.mem_singleton.1 hc⟩
    · next hn =>
      have hdiv : n / base < n := Nat.div_lt_self (by omega) hbase
      rcases List.mem_append.1 hc with hmem | hmem
      · exact ih _ hdiv hmem
      · exact ⟨n % base, Nat.mod_lt n (by omega), List.mem_singleton.1 hmem⟩

/-- Zeros in front do not count. -/
theorem accumulate_replicate_zero {base : Nat} (hbase : 0 < base) (k : Nat) (cs : List Char) :
    accumulate base 0 (List.replicate k '0' ++ cs) = accumulate base 0 cs := by
  induction k with
  | zero => rfl
  | succ k ih =>
    have hzero : digit? base '0' = some 0 := by simp [digit?, hbase]
    rw [List.replicate_succ, List.cons_append, accumulate, hzero]
    simpa using ih

/-- A natural number is read from its digits. -/
theorem natural?_toDigits {base : Nat} (hbase : 1 < base) (hle : base ≤ 16) (n : Nat) :
    natural? base (Nat.toDigits base n) = some n := by
  have hempty : (Nat.toDigits base n).isEmpty = false := by simp
  have hread := accumulate_digits hbase (f := id) (fun d => digit?_digitChar hle) n
  rw [List.map_id] at hread
  simp [natural?, hempty, hread]

/-- The digits of a positive number do not begin with a zero. -/
theorem head_toDigits_ne {n : Nat} (hn : 0 < n) :
    ∀ c ∈ (Nat.toDigits 10 n).head?, c ≠ '0' := by
  -- the first digit is that of the number without its last digit
  induction n using Nat.strongRecOn with
  | ind n ih =>
    rw [Nat.toDigits_eq_if (by decide)]
    split
    · next hlt =>
      have hdigit : ∀ d, d < 10 → 0 < d → d.digitChar ≠ '0' := by decide
      simpa using hdigit n hlt hn
    · next hle =>
      have hdiv := ih (n / 10) (Nat.div_lt_self hn (by decide)) (Nat.div_pos (by omega) (by decide))
      intro c hc
      rw [List.head?_append] at hc
      cases hhead : (Nat.toDigits 10 (n / 10)).head? with
      | none => exact absurd (List.head?_eq_none_iff.1 hhead) Nat.toDigits_ne_nil
      | some d =>
        rw [hhead] at hc hdiv
        cases hc
        exact hdiv _ rfl

theorem isDigit_of_mem_toDigits {n : Nat} {c : Char} (hc : c ∈ Nat.toDigits 10 n) :
    isDigit c = true := by
  have hdigit : ∀ d, d < 10 → isDigit d.digitChar = true := by decide
  obtain ⟨d, hd, rfl⟩ := exists_of_mem_toDigits (by decide) hc
  exact hdigit d hd

theorem not_sign_of_isDigit {c : Char} (h : isDigit c = true) : c ≠ '+' ∧ c ≠ '-' := by
  refine ⟨?_, ?_⟩ <;> rintro rfl <;> exact absurd h (by decide)

theorem head_toDigits_isDigit (n : Nat) :
    ∃ c cs, Nat.toDigits 10 n = c :: cs ∧ isDigit c = true := by
  obtain ⟨c, cs, hcs⟩ := List.exists_cons_of_ne_nil (Nat.toDigits_ne_nil : Nat.toDigits 10 n ≠ [])
  exact ⟨c, cs, hcs, isDigit_of_mem_toDigits (by rw [hcs]; exact List.mem_cons_self)⟩

/-- The digits of a whole number, behind its sign. -/
theorem toList_toString (n : Int) :
    (toString n).toList =
      if 0 ≤ n then Nat.toDigits 10 n.toNat else '-' :: Nat.toDigits 10 n.natAbs := by
  rw [Int.toString_eq_repr, Int.repr_eq_if]
  split
  · exact Nat.toList_repr
  · next hneg =>
    have hnat : (-n).toNat = n.natAbs := by omega
    rw [hnat, String.toList_append, Nat.toList_repr]
    rfl

end AtomProbe.Decimal
