import Mathlib.Data.List.TakeWhile
import AtomProbe.Text.Blank

/-!
# `AtomProbe.Proofs.Text.Blank`: characters without the blanks around them

Blanks are taken away at both ends and nowhere else. So characters that
neither begin nor end with a blank are what is left of them, with
whatever blanks around them.

* `exists_eq_append_trimChars`: what is taken away is blank.
* `trimChars_append`: all blanks around are taken away.
-/

set_option autoImplicit false

namespace AtomProbe.Text

/-- Whether all characters are blank. -/
def AllBlank (cs : List Char) : Prop := ∀ c ∈ cs, isBlank c = true

theorem dropWhile_eq_self {cs : List Char} (h : ∀ c ∈ cs.head?, isBlank c = false) :
    cs.dropWhile isBlank = cs := by
  cases cs with
  | nil => rfl
  | cons c cs => exact List.dropWhile_cons_of_neg (by simp [h c rfl])

/-- What is taken away is blank. -/
theorem exists_eq_append_trimChars (cs : List Char) :
    ∃ before after, cs = before ++ trimChars cs ++ after ∧ AllBlank before ∧ AllBlank after := by
  have hfront : cs.takeWhile isBlank ++ cs.dropWhile isBlank = cs := List.takeWhile_append_dropWhile
  have hback := congrArg List.reverse
    (List.takeWhile_append_dropWhile (p := isBlank) (l := (cs.dropWhile isBlank).reverse))
  rw [List.reverse_append, List.reverse_reverse] at hback
  refine ⟨cs.takeWhile isBlank, ((cs.dropWhile isBlank).reverse.takeWhile isBlank).reverse, ?_,
    fun c hc => List.mem_takeWhile_imp hc,
    fun c hc => List.mem_takeWhile_imp (List.mem_reverse.1 hc)⟩
  rw [trimChars, List.append_assoc, hback, hfront]

/-- All blanks around are taken away. -/
theorem trimChars_append {before cs after : List Char} (hbefore : AllBlank before)
    (hafter : AllBlank after) (hhead : ∀ c ∈ cs.head?, isBlank c = false)
    (hlast : ∀ c ∈ cs.getLast?, isBlank c = false) : trimChars (before ++ cs ++ after) = cs := by
  rw [trimChars, List.append_assoc, List.dropWhile_append_of_pos hbefore]
  cases cs with
  | nil =>
    rw [List.nil_append, List.dropWhile_eq_nil_iff.2 hafter]
    rfl
  | cons c cs =>
    have hback : ∀ x ∈ (c :: cs).reverse.head?, isBlank x = false := by
      rw [List.head?_reverse]
      exact hlast
    have hfront : (c :: cs ++ after).dropWhile isBlank = c :: cs ++ after := dropWhile_eq_self hhead
    rw [hfront, List.reverse_append,
      List.dropWhile_append_of_pos fun x hx => hafter x (List.mem_reverse.1 hx),
      dropWhile_eq_self hback, List.reverse_reverse]

end AtomProbe.Text
