/-!
# `AtomProbe.VariadicPath`: target paths with places for identifiers

A variadic path names a family of places in the template, for instance
those of all users of all entries. Each marker in it stands for an
identifier: the first marker for the first identifier, and so on from
left to right. A path is resolved by writing the identifiers in decimal
in place of the markers.

A path that cannot be resolved must not be written to. That is so for
the empty path, where the identifiers run out, and where a marker
directly follows another marker or a backslash.
-/

set_option autoImplicit false

namespace AtomProbe.VariadicPath

/-- The character that stands for an identifier. -/
def marker : Char := '*'

/-- The decimal digits of an identifier. -/
def digits (id : UInt32) : List Char := Nat.toDigits 10 id.toNat

/-- Write the identifiers in place of the markers of the rest of a
path. `previous` is the character before the rest. -/
def fill (previous : Char) : List Char → List UInt32 → Option (List Char)
  | [], _ => some []
  | c :: cs, ids =>
    if c = marker then
      if previous = marker ∨ previous = '\\' then none
      else
        match ids with
        | [] => none
        | id :: ids => (fill c cs ids).map (digits id ++ ·)
    else (fill c cs ids).map (c :: ·)

/-- The path with the identifiers in place of its markers, if it can be
resolved. Identifiers beyond the last marker are not used. -/
def resolve? (path : String) (ids : List UInt32) : Option String :=
  if path = "" then none
  else (fill ' ' path.toList ids).map String.ofList

/-- The number of markers in a path. -/
def markerCount (path : String) : Nat := path.toList.count marker

end AtomProbe.VariadicPath
