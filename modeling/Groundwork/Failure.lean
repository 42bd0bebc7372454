import Groundwork.Text.Basic

/-!
Failures of all stages. A failure names the stage it belongs to and the cause; the message follows
from the cause. Stages decide by the kind alone which failures they can make up for.
-/

namespace Groundwork

inductive DataFault where
  | missingKey
  | wrongKind
  | noMember
  | outOfRange
  | badValue
  | tooLarge
  | zeroDivision
  | unresolved
  | badText
  | badMarkup
  deriving DecidableEq, Repr

inductive FileFault where
  | missing
  | alreadyThere
  | notFolder
  | isFolder
  deriving DecidableEq, Repr

inductive ProviderFault where
  | noKey (party : String)
  | unreachable (party reason : String)
  | status (party : String) (code : Int) (body : String)
  | malformedEmbeddings
  | reported (message : String)
  deriving DecidableEq, Repr

def ProviderFault.message : ProviderFault → String
  | noKey party => "No API key configured for " ++ party
  | unreachable party reason => party ++ " request failed: " ++ reason
  | status party code body =>
    party ++ " returned HTTP " ++ toString code ++ ": " ++ Text.clip 200 body
  | malformedEmbeddings => "Malformed embedding response"
  | reported message => message

inductive RateLimitFault where
  | limited (party : String) (code : Int)
  | reported (message : String)
  deriving DecidableEq, Repr

def RateLimitFault.message : RateLimitFault → String
  | limited party code => party ++ " rate limited (HTTP " ++ toString code ++ "): rate_limit"
  | reported message => message

inductive GenerationFault where
  | noJsonBody (party : String)
  | malformedCompletion
  | noContent
  | emptyJson
  | invalidJson (reason : String)
  | noPhaseList
  | noUsablePhases
  | reported (message : String)
  deriving DecidableEq, Repr

def GenerationFault.message : GenerationFault → String
  | noJsonBody party => party ++ " returned non-JSON body"
  | malformedCompletion => "Malformed chat completion response"
  | noContent => "No content received from LLM"
  | emptyJson => "Empty JSON completion"
  | invalidJson reason => "Completion is not valid JSON: " ++ reason
  | noPhaseList => "Phase response has no 'phases' list"
  | noUsablePhases => "Provider returned no usable phases"
  | reported message => message

inductive PlanningFault where
  | unusablePlan
  | noProvider
  | phasesFailed (reason : String)
  | reported (message : String)
  deriving DecidableEq, Repr

namespace PlanningFault

def publicMessage : String := "Failed to generate a plan for the requested phase"

def message : PlanningFault → String
  | unusablePlan => publicMessage
  | noProvider => "No LLM configured for phase generation"
  | phasesFailed reason => "Phase generation failed: " ++ reason
  | reported message => if message.isEmpty then publicMessage else message

end PlanningFault

inductive CloneFault where
  | failed (url reason : String)
  | exited (url : String) (code : Int) (output : String)
  | reported (message : String)
  deriving DecidableEq, Repr

def CloneFault.message : CloneFault → String
  | failed url reason => "git clone of " ++ url ++ " failed: " ++ reason
  | exited url code output =>
    "git clone of " ++ url ++ " exited with " ++ toString code ++ ": " ++ output
  | reported message => message

inductive StoreFault where
  | emptyNamespace
  | unsupportedColumn (column : String)
  | noIndex (name : String)
  | notReady (name : String) (attempts : Int)
  | failed (action : String)
  | reported (message : String)
  deriving DecidableEq, Repr

def StoreFault.message : StoreFault → String
  | emptyNamespace => "Namespace must not be empty"
  | unsupportedColumn column => "Unsupported filter column: " ++ column
  | noIndex name => "Index '" ++ name ++ "' does not exist"
  | notReady name attempts =>
    "Index '" ++ name ++ "' not ready after " ++ toString attempts ++ " attempts"
  | failed action => action ++ " failed"
  | reported message => message

inductive ConfigFault where
  | unreadable (file : String)
  | notATable (part : String)
  | reported (message : String)
  deriving DecidableEq, Repr

def ConfigFault.message : ConfigFault → String
  | unreadable file => "Cannot read config file " ++ file
  | notATable part => "Config section [" ++ part ++ "] must be a table"
  | reported message => message

inductive Failure where
  | config (fault : ConfigFault)
  | request (violations : List String)
  | clone (fault : CloneFault)
  | store (fault : StoreFault)
  | provider (fault : ProviderFault)
  | rateLimit (fault : RateLimitFault)
  | generation (fault : GenerationFault)
  | planning (fault : PlanningFault)
  | service (publicMessage : String)
  | data (fault : DataFault)
  | file (fault : FileFault)
  | foreign (kind message : String)
  deriving DecidableEq, Repr

namespace Failure

def message : Failure → String
  | config fault => fault.message
  | request violations =>
    if violations.isEmpty then "Invalid request" else Text.join "; " violations
  | clone fault => fault.message
  | store fault => fault.message
  | provider fault => fault.message
  | rateLimit fault => fault.message
  | generation fault => fault.message
  | planning fault => fault.message
  | service publicMessage => publicMessage
  | data _ => ""
  | file _ => ""
  | foreign _ message => message

/-- Whether a provider failed or gave an answer of no use; a rate limit is one of these. -/
def isCompletion : Failure → Bool
  | provider _ => true
  | rateLimit _ => true
  | generation _ => true
  | _ => false

end Failure

end Groundwork
