import AtomProbe.Template
import AtomProbe.Yaml.Tree

/-!
# `AtomProbe.Template.Document`: the text of a template

A template is handed on as a document with a pair for each path, in
ascending order of the paths.
-/

set_option autoImplicit false

namespace AtomProbe

open Yaml (Tree)

namespace TemplateValue

/-- An integer as a word. -/
def integerWord (n : Int64) : Tree := .word (toString n.toInt)

/-- A real number as a word. -/
def realWord (x : Float) : Tree := .word (Yaml.writeReal x)

/-- A value as a part of a document. -/
def tree : TemplateValue → Tree
  | .text s => .text s
  | .boolean b => .word (if b then "true" else "false")
  | .integer n => integerWord n
  | .real x => realWord x
  | .texts items => .sequence (items.map .text)
  | .integers items => .sequence (items.map integerWord)
  | .reals items => .sequence (items.map realWord)

end TemplateValue

/-- The text of a template. -/
def Template.document (template : Template) : String :=
  Tree.document (template.toList.map fun (path, value) => (path, value.tree))

end AtomProbe
