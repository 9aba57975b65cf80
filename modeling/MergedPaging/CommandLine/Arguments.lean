/-
The command line: a command, its options, and what they may be.  Arguments are first
told apart into options and plain ones, then every option is read.  Whatever is
unknown, missing, repeated or unreadable makes the whole line unusable.
-/
import MergedPaging.Catalog.Listing
import MergedPaging.Text.Numeral

namespace MergedPaging.CommandLine

/-- What is paged, in which order, and from where. -/
structure Selection where
  fixture : String
  kind : Listing.Kind
  order : SortOrder
  size : Option Nat
  sources : List String
  byCurrency : Bool
  config : Option String
  sequential : Bool
  deriving DecidableEq

inductive Command where
  | page (selection : Selection) (continuation : Option String)
  | drain (selection : Selection)
  | single (selection : Selection) (source : String) (continuation : Option String)
  | decode (continuation : String)
  deriving DecidableEq

/-- An argument, told apart. -/
inductive Argument where
  | option (name value : String)
  | flag (name : String)
  | plain (text : String)
  deriving DecidableEq

/-- The options that a command knows: those with a value, and those without. -/
structure Options where
  valued : List String
  flags : List String

/-- An argument that is no option: it does not start with a dash, or is a dash alone. -/
def isPlain (arg : String) : Bool :=
  arg = "-" || arg.toList.head? != some '-'

/-- The name and the value of an option that are joined by the sign. -/
def splitOption (arg : String) : String × Option String :=
  match Text.splitFirst '=' arg.toList with
  | some (name, value) => (String.ofList name, some (String.ofList value))
  | none => (arg, none)

/-- Tells arguments apart.  An option's value is joined to it or is the next argument,
which then may not look like an option; behind two dashes every argument is plain. -/
def Options.read (o : Options) : List String → Option (List Argument)
  | [] => some []
  | [arg] =>
    if arg = "--" then some []
    else if isPlain arg then some [.plain arg]
    else
      match splitOption arg with
      | (name, some value) => if o.valued.contains name then some [.option name value] else none
      | (name, none) => if o.flags.contains name then some [.flag name] else none
  | arg :: next :: rest =>
    if arg = "--" then some ((next :: rest).map .plain)
    else if isPlain arg then (o.read (next :: rest)).map (.plain arg :: ·)
    else
      match splitOption arg with
      | (name, some value) =>
        if o.valued.contains name then (o.read (next :: rest)).map (.option name value :: ·)
        else none
      | (name, none) =>
        if o.flags.contains name then (o.read (next :: rest)).map (.flag name :: ·)
        else if o.valued.contains name && isPlain next then
          (o.read rest).map (.option name next :: ·)
        else none

/-- The values given to an option, in order. -/
def valuesOf (name : String) (arguments : List Argument) : List String :=
  arguments.filterMap fun
    | .option n value => if n = name then some value else none
    | _ => none

/-- The value of an option that may be given once. -/
def value? (name : String) (arguments : List Argument) : Option (Option String) :=
  match valuesOf name arguments with
  | [] => some none
  | [value] => some (some value)
  | _ => none

/-- An option that may be given once, read; a default stands in for it. -/
def readValue {α : Type} (name : String) (default : α) (read : String → Option α)
    (arguments : List Argument) : Option α := do
  match ← value? name arguments with
  | some value => read value
  | none => return default

/-- Whether a flag, which may be given once, is given. -/
def isSet (name : String) (arguments : List Argument) : Option Bool :=
  match arguments.count (.flag name) with
  | 0 => some false
  | 1 => some true
  | _ => none

def plainOf (arguments : List Argument) : List String :=
  arguments.filterMap fun
    | .plain text => some text
    | _ => none

def kindOfName? : String → Option Listing.Kind
  | "items" => some .items
  | "ownerships" => some .ownerships
  | "orders" => some .orders
  | "activities" => some .activities
  | _ => none

def orderOfName? : String → Option SortOrder
  | "last-updated-asc" => some ⟨.updated, .asc⟩
  | "last-updated-desc" => some ⟨.updated, .desc⟩
  | "price-asc" => some ⟨.price, .asc⟩
  | "price-desc" => some ⟨.price, .desc⟩
  | _ => none

/-- A page size: an unsigned number of 64 bits. -/
def size? (text : String) : Option Nat :=
  (Text.readNat (UInt64.size - 1) text.toList).toOption

def path? (text : String) : Option String :=
  if text = "" then none else some text

/-- The options of a selection. -/
def selectionOptions : Options where
  valued := ["--fixture", "--entity", "--sort", "--size", "--source", "--config"]
  flags := ["--by-currency", "--sequential"]

def Selection.ofArguments? (arguments : List Argument) : Option Selection := do
  return {
    fixture := ← (← value? "--fixture" arguments).bind path?
    kind := ← readValue "--entity" .items kindOfName? arguments
    order := ← readValue "--sort" ⟨.updated, .desc⟩ orderOfName? arguments
    size := ← readValue "--size" none (fun text => (size? text).map some) arguments
    sources := valuesOf "--source" arguments
    byCurrency := ← isSet "--by-currency" arguments
    config := ← readValue "--config" none (fun text => (path? text).map some) arguments
    sequential := ← isSet "--sequential" arguments }

/-- Reads a selection and further options with values. -/
def readSelection (more : List String) (args : List String) :
    Option (Selection × List Argument) := do
  let options := { selectionOptions with valued := more ++ selectionOptions.valued }
  let arguments ← options.read args
  if (plainOf arguments).isEmpty then
    return (← Selection.ofArguments? arguments, arguments)
  else none

namespace Command

/-- Reads a command line. -/
def parse? : List String → Option Command
  | "page" :: args => do
    let (selection, arguments) ← readSelection ["--continuation"] args
    return .page selection (← value? "--continuation" arguments)
  | "drain" :: args => do
    let (selection, _) ← readSelection [] args
    return .drain selection
  | "single" :: args => do
    let (selection, arguments) ← readSelection ["--from", "--continuation"] args
    let source ← (← value? "--from" arguments)
    return .single selection source (← value? "--continuation" arguments)
  | "decode" :: args => do
    match plainOf (← Options.read ⟨[], []⟩ args) with
    | [continuation] => return .decode continuation
    | _ => none
  | _ => none

end Command

end MergedPaging.CommandLine
