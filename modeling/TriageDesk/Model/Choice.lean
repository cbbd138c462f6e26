/-
TriageDesk.Model.Choice — which model the desk works with.

The provider `mock`, in letters of any size, stands for a model whose
replies are laid down, of which there are none. Any other provider is
reached through an interface for chat completions. Its key is taken from the
environment: from the variable that is named, else from one of two usual
ones.

Follows `create_llm_from_config`.
-/
import TriageDesk.Event
import TriageDesk.Model.Remote

namespace TriageDesk.Model

open Text

/-- The model that is wanted. -/
structure Wanted where
  provider : String
  model : String
  baseUrl : Option String
  /-- The variable that holds the key. -/
  keyVariable : Option String

/-- The model that the desk works with. -/
inductive Choice
  | script
  | remote (r : Remote)
deriving DecidableEq, Repr

/-- The variables that may hold a key where no other one does. -/
def usualKeyVariables : List String := ["DEEPSEEK_API_KEY", "OPENAI_API_KEY"]

/-- The key of a model. -/
def key? (w : Wanted) (environment : Table String) : Option String :=
  (w.keyVariable.toList ++ usualKeyVariables).findSome? environment.get?

/-- The model that is wanted, in an environment. -/
def choose (w : Wanted) (environment : Table String) : Choice :=
  if asciiLower w.provider = "mock" then .script
  else
    .remote { baseUrl := w.baseUrl.getD Remote.usualBaseUrl, model := w.model
              apiKey := (key? w environment).getD Remote.placeholderKey }

/-- What is reported when a model is chosen. -/
def choiceEvents (w : Wanted) (environment : Table String) : List Event :=
  match choose w environment with
  | .script => [.modelScripted]
  | .remote _ =>
    (if (key? w environment).isNone then [.modelKeyMissing] else []) ++
      [.modelRemote w.model w.baseUrl]

end TriageDesk.Model
