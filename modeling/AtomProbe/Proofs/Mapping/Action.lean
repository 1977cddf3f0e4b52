import Mathlib.Data.List.Forall2
import AtomProbe.Mapping
import AtomProbe.Proofs.Template.Value

/-!
# `AtomProbe.Proofs.Mapping.Action`: what is made of values, and what is refused

What an action makes of the values of its sources is said by a relation
with one case for each way to read a value (`Action.Makes`), and so is
what it refuses (`Action.Refuses`). Of several values the first that is
refused is the one that an error names (`Action.Fails`).

* `mapM_eq_ok_iff`, `mapM_eq_error_iff`: all that is accepted, and the
  first that is refused.
* `Reading.apply_eq_ok_iff`, `Reading.apply_eq_error_iff`: one value.
* `Combination.apply_eq_ok_iff`, `Combination.apply_eq_error_iff`: several
  values. There is one item for each of them, in their order, and the
  items are integers if each of the values is one.
-/

set_option autoImplicit false

namespace AtomProbe

/-! ### All that is accepted, and the first that is refused -/

theorem map_eq_ok_iff {α β ε : Type} {f : α → β} {result : Except ε α} {b : β} :
    f <$> result = .ok b ↔ ∃ a, result = .ok a ∧ b = f a := by
  cases result <;> simp [Functor.map, Except.map, eq_comm]

theorem map_eq_error_iff {α β ε : Type} {f : α → β} {result : Except ε α} {e : ε} :
    f <$> result = .error e ↔ result = .error e := by
  cases result <;> simp [Functor.map, Except.map]

theorem bind_eq_ok_iff {α β ε : Type} {result : Except ε α} {f : α → Except ε β} {b : β} :
    (result >>= f) = .ok b ↔ ∃ a, result = .ok a ∧ f a = .ok b := by
  cases result <;> simp [bind, Except.bind]

theorem bind_eq_error_iff {α β ε : Type} {result : Except ε α} {f : α → Except ε β} {e : ε} :
    (result >>= f) = .error e ↔ result = .error e ∨ ∃ a, result = .ok a ∧ f a = .error e := by
  cases result <;> simp [bind, Except.bind]

/-- All is accepted, item by item. -/
theorem mapM_eq_ok_iff {α β ε : Type} {f : α → Except ε β} {xs : List α} {ys : List β} :
    xs.mapM f = .ok ys ↔ List.Forall₂ (fun x y => f x = .ok y) xs ys := by
  induction xs generalizing ys with
  | nil =>
    rw [List.forall₂_nil_left_iff]
    exact ⟨fun h => by cases h; rfl, fun h => by subst h; rfl⟩
  | cons x xs ih =>
    rw [List.mapM_cons, List.forall₂_cons_left_iff]
    simp only [bind_eq_ok_iff, ih]
    constructor
    · rintro ⟨y, hy, ys', hys, h⟩
      cases h
      exact ⟨y, ys', hy, hys, rfl⟩
    · rintro ⟨y, ys', hy, hys, rfl⟩
      exact ⟨y, hy, ys', hys, rfl⟩

/-- The first item that is refused makes the error. -/
theorem mapM_eq_error_iff {α β ε : Type} {f : α → Except ε β} {xs : List α} {e : ε} :
    xs.mapM f = .error e ↔
      ∃ before x after, xs = before ++ x :: after ∧
        (∀ y ∈ before, ∃ z, f y = .ok z) ∧ f x = .error e := by
  induction xs with
  | nil =>
    refine ⟨nofun, ?_⟩
    rintro ⟨before, x, after, hxs, -⟩
    cases before <;> cases hxs
  | cons x xs ih =>
    rw [List.mapM_cons]
    simp only [bind_eq_error_iff, ih]
    constructor
    · -- the first item fails, or it is done and a later one does
      rintro (hx | ⟨y, hy, ⟨before, x', after, rfl, hbefore, hx'⟩ | ⟨ys, -, h⟩⟩)
      · exact ⟨[], x, xs, rfl, nofun, hx⟩
      · exact ⟨x :: before, x', after, rfl, List.forall_mem_cons.2 ⟨⟨y, hy⟩, hbefore⟩, hx'⟩
      · cases h
    · rintro ⟨before, x', after, hxs, hbefore, hx'⟩
      cases before with
      | nil =>
        cases hxs
        exact .inl hx'
      | cons b before =>
        cases hxs
        obtain ⟨⟨y, hy⟩, hbefore⟩ := List.forall_mem_cons.1 hbefore
        exact .inr ⟨y, hy, .inl ⟨before, x', after, rfl, hbefore, hx'⟩⟩

/-! ### What an action makes of its sources -/

/-- What an action makes of the values of its sources, in the order of
the sources. An array has one item for each source. -/
inductive Action.Makes : Action → List Metadata → TemplateValue → Prop
  | text (s : String) : Makes (.use (.text s)) [] (.text s)
  | boolean (b : Bool) : Makes (.use (.boolean b)) [] (.boolean b)
  | copied {source : Option String} {value : Metadata} {v : TemplateValue}
      (h : TemplateValue.ofMetadata? value = some v) : Makes (.read .copy source) [value] v
  | truth {source : Option String} {value : Metadata} {b : Bool} (h : value.toBoolean = .ok b) :
      Makes (.read .boolean source) [value] (.boolean b)
  | integer {source : Option String} {value : Metadata} {n : Int64}
      (h : value.toNumber = .ok (.integer n)) : Makes (.read .number source) [value] (.integer n)
  | real {source : Option String} {value : Metadata} {x : Float}
      (h : value.toNumber = .ok (.real x)) : Makes (.read .number source) [value] (.real x)
  | unsigned {source : Option String} {value : Metadata} {n : UInt32}
      (h : value.toUnsigned = .ok n) :
      Makes (.read .unsigned source) [value] (.integer (Int64.ofNat n.toNat))
  | scaled {source : Option String} {value : Metadata} {n : Metadata.Number} {factor : Float}
      (h : value.toNumber = .ok n) :
      Makes (.read (.scaled factor) source) [value] (.real (factor * n.toReal))
  | time {source : Option String} {value : Metadata} {seconds : Int64} {s : String}
      (h : value.toTimestamp = .ok seconds) (htext : iso8601 seconds = .ok s) :
      Makes (.read .timestamp source) [value] (.text s)
  | reals {sources : List String} {values : List Metadata} {numbers : List Metadata.Number}
      (h : List.Forall₂ (fun value n => Metadata.toNumber value = .ok n) values numbers) :
      Makes (.combine .reals sources) values (.reals (numbers.map (·.toReal)))
  | integers {sources : List String} {values : List Metadata} {items : List Int64}
      (h : List.Forall₂ (fun value n => Metadata.toNumber value = .ok (.integer n)) values items) :
      Makes (.combine .numbers sources) values (.integers items)
  | mixed {sources : List String} {values : List Metadata} {numbers : List Metadata.Number}
      (h : List.Forall₂ (fun value n => Metadata.toNumber value = .ok n) values numbers)
      {x : Float} (hreal : .real x ∈ numbers) :
      Makes (.combine .numbers sources) values (.reals (numbers.map (·.toReal)))
  | joined {sources : List String} {values : List Metadata} :
      Makes (.combine .joined sources) values (.text (" ".intercalate (values.map (·.display))))

/-- What an action refuses, and with which error. To join texts nothing
is refused. -/
inductive Action.Refuses : Action → String → Metadata → MappingError → Prop
  | copied {source : Option String} {key : String} {value : Metadata}
      (h : TemplateValue.ofMetadata? value = none) :
      Refuses (.read .copy source) key value (.unsupportedValue key)
  | truth {source : Option String} {key : String} {value : Metadata} {cause : ConversionError}
      (h : value.toBoolean = .error cause) :
      Refuses (.read .boolean source) key value (.conversion key cause)
  | number {source : Option String} {key : String} {value : Metadata} {cause : ConversionError}
      (h : value.toNumber = .error cause) :
      Refuses (.read .number source) key value (.conversion key cause)
  | unsigned {source : Option String} {key : String} {value : Metadata} {cause : ConversionError}
      (h : value.toUnsigned = .error cause) :
      Refuses (.read .unsigned source) key value (.conversion key cause)
  | scaled {source : Option String} {factor : Float} {key : String} {value : Metadata}
      {cause : ConversionError} (h : value.toNumber = .error cause) :
      Refuses (.read (.scaled factor) source) key value (.conversion key cause)
  | seconds {source : Option String} {key : String} {value : Metadata} {cause : ConversionError}
      (h : value.toTimestamp = .error cause) :
      Refuses (.read .timestamp source) key value (.conversion key cause)
  | time {source : Option String} {key : String} {value : Metadata} {seconds : Int64}
      {cause : ConversionError} (h : value.toTimestamp = .ok seconds)
      (hrange : iso8601 seconds = .error cause) :
      Refuses (.read .timestamp source) key value (.conversion key cause)
  | reals {sources : List String} {key : String} {value : Metadata} {cause : ConversionError}
      (h : value.toNumber = .error cause) :
      Refuses (.combine .reals sources) key value (.conversion key cause)
  | numbers {sources : List String} {key : String} {value : Metadata} {cause : ConversionError}
      (h : value.toNumber = .error cause) :
      Refuses (.combine .numbers sources) key value (.conversion key cause)

theorem under_eq_ok_iff {α : Type} {key : String} {result : Except ConversionError α} {a : α} :
    under key result = .ok a ↔ result = .ok a := by
  cases result <;> simp [under, Except.mapError]

theorem under_eq_error_iff {α : Type} {key : String} {result : Except ConversionError α}
    {e : MappingError} :
    under key result = .error e ↔ ∃ cause, result = .error cause ∧ e = .conversion key cause := by
  cases result <;> simp [under, Except.mapError, eq_comm]

/-- What is made of a value, way by way. -/
theorem Reading.apply_eq_ok_iff {reading : Reading} {source : Option String} {key : String}
    {value : Metadata} {v : TemplateValue} :
    reading.apply key value = .ok v ↔ (Action.read reading source).Makes [value] v := by
  cases reading with
  | copy =>
    constructor
    · intro h
      rw [apply] at h
      split at h
      · next hv =>
        cases h
        exact .copied hv
      · cases h
    · exact fun | .copied h => by simp only [apply, h]
  | boolean =>
    simp only [apply, map_eq_ok_iff, under_eq_ok_iff]
    exact ⟨fun ⟨_, h, hv⟩ => hv ▸ .truth h, fun | .truth h => ⟨_, h, rfl⟩⟩
  | number =>
    simp only [apply, map_eq_ok_iff, under_eq_ok_iff]
    constructor
    · rintro ⟨n, hn, rfl⟩
      -- what is written shows whether the number is an integer
      cases n with
      | integer n => exact .integer hn
      | real x => exact .real hn
    · exact fun
        | .integer h => ⟨_, h, rfl⟩
        | .real h => ⟨_, h, rfl⟩
  | unsigned =>
    simp only [apply, map_eq_ok_iff, under_eq_ok_iff]
    exact ⟨fun ⟨_, h, hv⟩ => hv ▸ .unsigned h, fun | .unsigned h => ⟨_, h, rfl⟩⟩
  | scaled factor =>
    simp only [apply, map_eq_ok_iff, under_eq_ok_iff]
    exact ⟨fun ⟨_, h, hv⟩ => hv ▸ .scaled h, fun | .scaled h => ⟨_, h, rfl⟩⟩
  | timestamp =>
    simp only [apply, map_eq_ok_iff, under_eq_ok_iff, bind_eq_ok_iff]
    exact ⟨fun ⟨_, ⟨_, h, htext⟩, hv⟩ => hv ▸ .time h htext,
      fun | .time h htext => ⟨_, ⟨_, h, htext⟩, rfl⟩⟩

/-- What is refused, way by way. -/
theorem Reading.apply_eq_error_iff {reading : Reading} {source : Option String} {key : String}
    {value : Metadata} {e : MappingError} :
    reading.apply key value = .error e ↔ (Action.read reading source).Refuses key value e := by
  cases reading with
  | copy =>
    constructor
    · intro h
      rw [apply] at h
      split at h
      · cases h
      · next hv =>
        cases h
        exact .copied hv
    · exact fun | .copied h => by simp only [apply, h]
  | boolean =>
    simp only [apply, map_eq_error_iff, under_eq_error_iff]
    exact ⟨fun ⟨_, h, he⟩ => he ▸ .truth h, fun | .truth h => ⟨_, h, rfl⟩⟩
  | number =>
    simp only [apply, map_eq_error_iff, under_eq_error_iff]
    exact ⟨fun ⟨_, h, he⟩ => he ▸ .number h, fun | .number h => ⟨_, h, rfl⟩⟩
  | unsigned =>
    simp only [apply, map_eq_error_iff, under_eq_error_iff]
    exact ⟨fun ⟨_, h, he⟩ => he ▸ .unsigned h, fun | .unsigned h => ⟨_, h, rfl⟩⟩
  | scaled factor =>
    simp only [apply, map_eq_error_iff, under_eq_error_iff]
    exact ⟨fun ⟨_, h, he⟩ => he ▸ .scaled h, fun | .scaled h => ⟨_, h, rfl⟩⟩
  | timestamp =>
    -- the seconds may not be read, or not be those of a date that can be written
    simp only [apply, map_eq_error_iff, under_eq_error_iff, bind_eq_error_iff]
    constructor
    · rintro ⟨cause, hcause | ⟨seconds, hseconds, hcause⟩, rfl⟩
      · exact .seconds hcause
      · exact .time hseconds hcause
    · exact fun
        | .seconds h => ⟨_, .inl h, rfl⟩
        | .time h hrange => ⟨_, .inr ⟨_, h, hrange⟩, rfl⟩

/-- An action fails at the first source that it refuses. -/
def Action.Fails (action : Action) (found : List (String × Metadata)) (e : MappingError) : Prop :=
  ∃ before key value after, found = before ++ (key, value) :: after ∧
    (∀ p ∈ before, ∀ e', ¬ action.Refuses p.1 p.2 e') ∧ action.Refuses key value e

/-- One source is the first. -/
theorem Action.fails_singleton {action : Action} {key : String} {value : Metadata}
    {e : MappingError} : action.Fails [(key, value)] e ↔ action.Refuses key value e := by
  constructor
  · rintro ⟨before, k, v, after, hfound, -, he⟩
    cases before with
    | nil =>
      cases hfound
      exact he
    | cons p before => cases before <;> cases hfound
  · exact fun he => ⟨[], key, value, [], rfl, nofun, he⟩

theorem Action.not_fails_nil {action : Action} {e : MappingError} : ¬ action.Fails [] e := by
  rintro ⟨before, key, value, after, hfound, -⟩
  cases before <;> cases hfound

/-- Of no source a literal is made. -/
theorem Literal.makes_iff {literal : Literal} {v : TemplateValue} :
    (Action.use literal).Makes [] v ↔ v = literal.value := by
  constructor
  · exact fun
      | .text s => rfl
      | .boolean b => rfl
  · rintro rfl
    cases literal with
    | text s => exact .text s
    | boolean b => exact .boolean b

theorem exists_ok_iff {α ε : Type} {result : Except ε α} :
    (∃ a, result = .ok a) ↔ ∀ e, result ≠ .error e := by
  cases result <;> simp

namespace Combination

theorem numbersOf_eq_ok_iff {found : List (String × Metadata)} {numbers : List Metadata.Number} :
    numbersOf found = .ok numbers ↔
      List.Forall₂ (fun value n => Metadata.toNumber value = .ok n) (found.map Prod.snd)
        numbers := by
  rw [numbersOf, mapM_eq_ok_iff, List.forall₂_map_left_iff]
  simp only [under_eq_ok_iff]

theorem numbersOf_eq_error_iff {action : Action}
    (hrefuses : ∀ key value e, action.Refuses key value e ↔
      under key (Metadata.toNumber value) = .error e)
    {found : List (String × Metadata)} {e : MappingError} :
    numbersOf found = .error e ↔ action.Fails found e := by
  rw [numbersOf, mapM_eq_error_iff, Action.Fails]
  simp only [hrefuses, exists_ok_iff, Prod.exists, ne_eq]

/-- What is made of several values. -/
theorem apply_eq_ok_iff {combination : Combination} {sources : List String}
    {found : List (String × Metadata)} {v : TemplateValue} :
    combination.apply found = .ok v ↔
      (Action.combine combination sources).Makes (found.map Prod.snd) v := by
  cases combination with
  | reals =>
    simp only [apply, map_eq_ok_iff, numbersOf_eq_ok_iff]
    exact ⟨fun ⟨_, h, hv⟩ => hv ▸ .reals h, fun | .reals h => ⟨_, h, rfl⟩⟩
  | numbers =>
    simp only [apply, map_eq_ok_iff, numbersOf_eq_ok_iff]
    constructor
    · rintro ⟨numbers, h, rfl⟩
      -- a single real number makes all of them real
      rcases TemplateValue.integers_or_real numbers with ⟨items, rfl⟩ | ⟨x, hx⟩
      · rw [List.forall₂_map_right_iff] at h
        rw [TemplateValue.ofNumbers_integers]
        exact .integers h
      · rw [TemplateValue.ofNumbers_of_real hx]
        exact .mixed h hx
    · exact fun
        | .integers h => ⟨_, List.forall₂_map_right_iff.2 h, (TemplateValue.ofNumbers_integers _).symm⟩
        | .mixed h hx => ⟨_, h, (TemplateValue.ofNumbers_of_real hx).symm⟩
  | joined =>
    have hfound : (found.map fun source => source.2.display) =
        (found.map Prod.snd).map (·.display) := by
      rw [List.map_map]
      rfl
    rw [apply, hfound]
    exact ⟨fun h => Except.ok.inj h ▸ .joined, fun | .joined => rfl⟩

/-- What is refused among several values. -/
theorem apply_eq_error_iff {combination : Combination} {sources : List String}
    {found : List (String × Metadata)} {e : MappingError} :
    combination.apply found = .error e ↔ (Action.combine combination sources).Fails found e := by
  cases combination with
  | reals =>
    rw [apply, map_eq_error_iff]
    refine numbersOf_eq_error_iff fun key value e => ?_
    rw [under_eq_error_iff]
    exact ⟨fun | .reals h => ⟨_, h, rfl⟩, fun ⟨_, h, he⟩ => he ▸ .reals h⟩
  | numbers =>
    rw [apply, map_eq_error_iff]
    refine numbersOf_eq_error_iff fun key value e => ?_
    rw [under_eq_error_iff]
    exact ⟨fun | .numbers h => ⟨_, h, rfl⟩, fun ⟨_, h, he⟩ => he ▸ .numbers h⟩
  | joined => exact ⟨nofun, fun ⟨_, _, _, _, _, _, h⟩ => nomatch h⟩

end Combination

end AtomProbe
