import AtomProbe.Mapping

/-!
# `AtomProbe.Vocabulary.ApplicationDefinition`: what every template says

A template names the application definition that it is written for, and
the program that wrote it.
-/

set_option autoImplicit false

namespace AtomProbe.Vocabulary

/-- The application definition. -/
def definitionName : String := "NXapm"

/-- The program. -/
def programName : String := "libapm_mapper"

/-- The version of the program. -/
def programVersion : String := "0.1.0"

/-- The application definition and the program. -/
def applicationDefinition : Table where
  name := "appdef"
  target := some "/ENTRY[entry*]"
  olderTarget := none
  source := none
  rules := [
    .use "definition" definitionName,
    .use "profiling/programID[program1]/program" programName,
    .use "profiling/programID[program1]/program/@version" programVersion]

end AtomProbe.Vocabulary
