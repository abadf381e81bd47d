import FlowDiagram.Text.Blank
import FlowDiagram.Text.Numeral
import FlowDiagram.Text.Upper

/-!
# Settings

The settings of the library come from an environment, a list of named texts. A name that is missing
gives the default, and so does a number that cannot be read.
-/

namespace FlowDiagram
open FlowDiagram.Text

abbrev Environment := List (Text × Text)

def Environment.value? (env : Environment) (name : Text) : Option Text := env.lookup name

structure Settings where
  /-- The label that stands where nothing is left of a label. -/
  fallbackLabel : Text
  /-- The direction of a diagram for which none is given. -/
  direction : Text
  /-- Code has to be longer than this. -/
  minLength : Int
  /-- The limit for labels; below one there is none. -/
  maxLabelLength : Int
  /-- Where the chat model is reached. -/
  baseUrl : Text
  model : Text
  /-- How long an answer of the model may take, in seconds. -/
  timeout : Int
  deriving DecidableEq

namespace Settings

def standard : Settings where
  fallbackLabel := "Step"
  direction := "TD"
  minLength := 15
  maxLabelLength := 0
  baseUrl := "http://host.docker.internal:11434"
  model := "mistral:7b-instruct"
  timeout := 300

/-- The fallback label is trimmed, and an empty one is none. -/
def fallbackLabelOf (value : Text) : Text :=
  if (trim value).isEmpty then standard.fallbackLabel else trim value

/-- The number that a variable holds, or the default. -/
def numberOf (env : Environment) (name : Text) (default : Int) : Int :=
  ((env.value? name).bind readInt?).getD default

def ofEnvironment (env : Environment) : Settings where
  fallbackLabel :=
    ((env.value? "DIAGRAMKIT_FALLBACK_LABEL").map fallbackLabelOf).getD
      standard.fallbackLabel
  direction :=
    ((env.value? "DIAGRAMKIT_DIRECTION").map toUpper).getD standard.direction
  minLength := numberOf env "DIAGRAMKIT_MIN_LENGTH" standard.minLength
  maxLabelLength := numberOf env "DIAGRAMKIT_MAX_LABEL_LENGTH" standard.maxLabelLength
  baseUrl := (env.value? "OLLAMA_BASE_URL").getD standard.baseUrl
  model := (env.value? "OLLAMA_MODEL").getD standard.model
  timeout := numberOf env "DIAGRAMKIT_LLM_TIMEOUT" standard.timeout

theorem ofEnvironment_nil : ofEnvironment [] = standard := rfl

end Settings

end FlowDiagram
