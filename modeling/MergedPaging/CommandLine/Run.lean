/-
Running a command: its files are read and checked, then its request is answered by a
gateway over the fixture's sources.  Files are read by an action of any monad, so a
run needs no real files.
-/
import MergedPaging.CommandLine.Arguments
import MergedPaging.Config.Toml
import MergedPaging.Gateway.Fetch
import MergedPaging.Page.Json

namespace MergedPaging.CommandLine

/-- Why a run fails. -/
inductive RunError where
  | fixtureUnread (reason : String)
  | fixture (error : FixtureError)
  | configUnread (reason : String)
  | config (error : ConfigError)
  | currencyWithoutOrders
  | priceWithoutOrders
  | gateway (error : GatewayError)
  | continuation (error : CursorError)
  deriving DecidableEq

def RunError.message : RunError → String
  | fixtureUnread reason => "read fixture: " ++ reason
  | fixture error => error.message
  | configUnread reason => "read config file: " ++ reason
  | config error => error.message
  | currencyWithoutOrders => "--by-currency applies to orders only"
  | priceWithoutOrders => "price ordering applies to orders only"
  | gateway error => s!"[{error.status}] " ++ error.message
  | continuation error => error.message

/-- What a run leaves behind. -/
structure Outcome where
  exitCode : Nat
  output : String
  message : String
  deriving DecidableEq

namespace Outcome

/-- The outcome of a line that is no command. -/
def usage : Outcome :=
  ⟨2, "", "usage: merged-paging (page | drain | single | decode) [options]"⟩

def ofExcept : Except RunError String → Outcome
  | .ok output => ⟨0, output, ""⟩
  | .error error => ⟨1, "", "Error: " ++ error.message⟩

end Outcome

/-- What is asked of the gateway. -/
inductive Action where
  | page (continuation : Option String)
  | drain
  | single (source : String) (continuation : Option String)
  deriving DecidableEq

variable {α : Type} [Sortable α]

/-- A gateway over fixed sources. -/
def gatewayOf (order : SortOrder) (config : Config) (sources : List (StaticSource α)) :
    Except GatewayError (Gateway Id α) :=
  sources.foldlM (fun gateway source => gateway.add source.toSource)
    (Gateway.new (.single order) config)

/-- The page that answers an action; drained entities are a last page. -/
def Action.answer (action : Action) (selection : Selection) (gateway : Gateway Id α) :
    Except GatewayError (Page α) :=
  let request : PageRequest := { size := selection.size, sources := selection.sources }
  match action with
  | page continuation => (gateway.fetchPage { request with continuation }).run
  | drain => ((gateway.drain request).run : Except _ _).map fun entities => ⟨none, entities⟩
  | single source continuation => (gateway.fetchSingle source continuation selection.size).run

/-- Answers an action over sources, as JSON text. -/
def answerOver [ToJson α] (selection : Selection) (config : Config) (action : Action)
    (sources : List (StaticSource α)) : Except GatewayError String := do
  let gateway ← gatewayOf selection.order config sources
  let page ← action.answer selection gateway
  return (page.toJson ToJson.toJson).pretty ++ "\n"

/-- Answers an action, given the files that the selection names. -/
def answer (selection : Selection) (action : Action) (fixture : Fixture) (config : Config) :
    Except RunError String := do
  if selection.byCurrency && selection.kind != .orders then throw .currencyWithoutOrders
  if selection.order.key = .price && selection.kind != .orders then throw .priceWithoutOrders
  let config := if selection.sequential then { config with parallel := false } else config
  let answered ← (fixture.withSources selection.kind selection.order selection.byCurrency
    (answerOver selection config action)).mapError .fixture
  answered.mapError .gateway

/-- One line about a source's progress, in columns. -/
def progressLine (entry : String × Progress) : String :=
  let id := entry.1 ++ String.ofList (List.replicate (12 - entry.1.length) ' ')
  match entry.2 with
  | .completed => id ++ " COMPLETED\n"
  | .active cursor => id ++ " after " ++ cursor ++ "\n"

/-- What a bookmark holds, source by source. -/
def decode (continuation : String) : Except RunError String := do
  let bookmark ← (Bookmark.parse (some continuation)).mapError .continuation
  if bookmark.isEmpty then return "(start of stream)\n"
  return String.join (bookmark.toList.map progressLine)

variable {m : Type → Type} [Monad m]

/-- Reads the files of a selection and answers an action. -/
def answerFrom (readFile : String → m (Except String String)) (selection : Selection)
    (action : Action) : ExceptT RunError m String := do
  let text ← ExceptT.mk ((·.mapError .fixtureUnread) <$> readFile selection.fixture)
  let fixture ← liftExcept ((Fixture.parse text).mapError .fixture)
  let config ← match selection.config with
    | none => pure {}
    | some path => do
      let text ← ExceptT.mk ((·.mapError .configUnread) <$> readFile path)
      liftExcept ((Config.parse text).mapError .config)
  liftExcept (answer selection action fixture config)
where
  liftExcept {β : Type} (value : Except RunError β) : ExceptT RunError m β :=
    ExceptT.mk (pure value)

/-- Runs a command. -/
def Command.run (readFile : String → m (Except String String)) :
    Command → ExceptT RunError m String
  | .page selection continuation => answerFrom readFile selection (.page continuation)
  | .drain selection => answerFrom readFile selection .drain
  | .single selection source continuation =>
    answerFrom readFile selection (.single source continuation)
  | .decode continuation => ExceptT.mk (pure (CommandLine.decode continuation))

/-- Runs a command line. -/
def run (readFile : String → m (Except String String)) (args : List String) : m Outcome :=
  match Command.parse? args with
  | none => pure .usage
  | some command => Outcome.ofExcept <$> (command.run readFile).run

end MergedPaging.CommandLine
