import EarningsLedger.Number.Numeral
import EarningsLedger.Settings.Basic
import EarningsLedger.Settings.EnvFile

/-!
# Where settings come from

Settings are handed over by name, taken from the environment, or read from a file, and
the first of these that has a value decides. Names are matched without regard to case;
of several spellings in one place the last counts, except that a name handed over in its
own spelling goes before all others.
-/

namespace EarningsLedger.Settings

def lowerName (name : String) : String := String.ofList (name.toList.map Number.lowerChar)

/-- The last value under any spelling of a name. -/
def lastSpelled (given : Fields) (name : String) : Option Value :=
  (given.reverse.find? fun field => lowerName field.1 == name).map (·.2)

def handedOver (given : Fields) (name : String) : Option Value :=
  match given.get? name with
  | some value => some value
  | none => lastSpelled given name

def envFields (env : List (String × String)) : Fields :=
  env.map fun entry => (entry.1, .text entry.2)

/-- The bindings of a file that have a value. -/
def fileFields (env : List (String × String)) (file : Option String) : Fields :=
  match file with
  | none => []
  | some text =>
    (EnvFile.values env text).map fun binding => (binding.1, .ofText? binding.2)

def valueOf (given env file : Fields) (name : String) : Option Value :=
  match handedOver given name with
  | some value => some value
  | none =>
    match lastSpelled env name with
    | some value => some value
    | none => (lastSpelled file name).filter fun value => !value.isNull

/-- The settings that have a value, in the order of their names. -/
def gathered (given env file : Fields) : Fields :=
  names.filterMap fun name => (valueOf given env file name).map fun value => (name, value)

def load (env : List (String × String)) (file : Option String) (given : Fields) :
    Except Check.Issues Settings :=
  accept (gathered given (envFields env) (fileFields env file))

end EarningsLedger.Settings
