import GraphQuery.Json
import GraphQuery.Text.Blank
import GraphQuery.Text.Case

/-!
# Configuration of a client

Where a client finds the database, and with which options it runs queries and
mutations.
-/

namespace GraphQuery.Client

/-- The options of one request. -/
structure Options where
  readOnly : Bool := false
  bestEffort : Bool := false
  commitNow : Bool := false
  deriving DecidableEq

/-- Options as a JSON object. -/
def Options.toJson (o : Options) : Json :=
  .object [("read_only", .bool o.readOnly), ("best_effort", .bool o.bestEffort), ("commit_now", .bool o.commitNow)]

/-- The settings found in the environment of a program. -/
structure Environment where
  address : Option String := none
  readOnly : Option String := none
  bestEffort : Option String := none

/-- The configuration of a client. -/
structure Config where
  address : String
  readOnly : Bool := false
  bestEffort : Bool := false
  deriving DecidableEq

namespace Config

/-- The address when none is given. -/
def defaultAddress : String := "localhost:9080"

/-- The configuration when none is given. -/
def default : Config := { address := defaultAddress }

/-- The words for yes and for no, in any letter case and with blanks around. -/
def flag? (s : String) : Option Bool :=
  let word := String.ofList ((Text.trim s.toList).map Text.asciiLower)
  if ["1", "true", "yes", "on"].contains word then some true
  else if ["0", "false", "no", "off"].contains word then some false
  else none

/-- The configuration from the environment; what is missing or not understood has its default. -/
def ofEnvironment (e : Environment) : Config :=
  let address := String.ofList (Text.trim (e.address.getD "").toList)
  { address := if address.isEmpty then defaultAddress else address
    readOnly := (e.readOnly.bind flag?).getD false
    bestEffort := (e.bestEffort.bind flag?).getD false }

/-- The configuration with another address. -/
def withAddress (c : Config) (address : String) : Config := { c with address := address }

/-- The configuration with queries that only read, or not. -/
def withReadOnly (c : Config) (b : Bool) : Config := { c with readOnly := b }

/-- The configuration with queries that may be answered from stale data, or not. Such queries only
    read. -/
def withBestEffort (c : Config) (b : Bool) : Config :=
  { c with bestEffort := b, readOnly := b || c.readOnly }

/-- The options of queries. -/
def queryOptions (c : Config) : Options :=
  { readOnly := c.readOnly || c.bestEffort, bestEffort := c.bestEffort }

/-- The options of mutations, which are committed at once. -/
def mutationOptions (_ : Config) : Options := { commitNow := true }

end Config

end GraphQuery.Client
