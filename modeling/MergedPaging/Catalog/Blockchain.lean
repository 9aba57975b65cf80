/-
The blockchains that entities live on.
-/
import MergedPaging.Json.Record

namespace MergedPaging

inductive Blockchain where
  | ethereum
  | polygon
  | flow
  | tezos
  | solana
  | immutablex
  deriving DecidableEq

namespace Blockchain

/-- All blockchains, in their order. -/
def all : List Blockchain :=
  [ethereum, polygon, flow, tezos, solana, immutablex]

def name : Blockchain → String
  | ethereum => "ETHEREUM"
  | polygon => "POLYGON"
  | flow => "FLOW"
  | tezos => "TEZOS"
  | solana => "SOLANA"
  | immutablex => "IMMUTABLEX"

/-- The place in the order of all blockchains. -/
def rank (b : Blockchain) : Nat :=
  all.idxOf b

/-- The blockchain with exactly this name. -/
def ofName? (text : String) : Option Blockchain :=
  all.find? fun b => b.name = text

/-- The blockchain with this name in any mixture of upper and lower case letters. -/
def parse? (text : String) : Option Blockchain :=
  all.find? fun b => b.name.toList = text.toList.map Char.toUpper

/-- What is said of a name that is none of a blockchain's. -/
def unknownMessage (text : String) : String :=
  "unknown blockchain: " ++ text

def ofJson? (v : Json) : Option Blockchain :=
  Json.named? ofName? v

def toJson (b : Blockchain) : Json :=
  .string b.name

end Blockchain

end MergedPaging
