import ReplicatedKv.Bytes
import ReplicatedKv.Saturating

/-! # Receipts

What a replica reports about executed transactions.  Every field takes part in consensus: replicas
that run the same block on the same state report the same receipts.

* `ResultCode` — the outcome of one transaction; its number never changes once a chain runs.
* `Receipt` — outcome, log, gas and events of one transaction.
* `BlockReceipt` — the receipts of a block in block order, with their totals.
-/

namespace ReplicatedKv

/-- The outcome of a transaction. -/
inductive ResultCode where
  | ok
  | internal
  | txDecode
  deriving DecidableEq

namespace ResultCode

def toUInt32 : ResultCode → UInt32
  | ok => 0
  | internal => 1
  | txDecode => 2

def label : ResultCode → String
  | ok => "OK"
  | internal => "ERR_INTERNAL"
  | txDecode => "ERR_TX_DECODE"

def isOk (c : ResultCode) : Bool := c == ok

end ResultCode

/-- Something that happened during a transaction, with ordered attributes. -/
structure Event where
  kind : String
  attributes : List (String × String) := []
  deriving DecidableEq

def Event.withAttribute (e : Event) (name value : String) : Event :=
  { e with attributes := e.attributes ++ [(name, value)] }

/-- The report on one transaction. -/
structure Receipt where
  code : UInt32 := 0
  data : Bytes := []
  log : String := ""
  info : String := ""
  gasWanted : Int64 := 0
  gasUsed : Int64 := 0
  events : List Event := []
  /-- The name space of the code, empty on success. -/
  codespace : String := ""
  deriving DecidableEq

namespace Receipt

/-- A receipt that reports nothing but an outcome and a log. -/
def failure (code : ResultCode) (codespace log : String) : Receipt :=
  { code := code.toUInt32, log := log, codespace := codespace }

def succeeded (r : Receipt) : Bool := r.code == ResultCode.ok.toUInt32

end Receipt

/-- The receipts of a block, one for every transaction submitted. -/
structure BlockReceipt where
  receipts : List Receipt := []
  deriving DecidableEq

namespace BlockReceipt

def size (b : BlockReceipt) : Nat := b.receipts.length

def isEmpty (b : BlockReceipt) : Bool := b.receipts.isEmpty

def succeededCount (b : BlockReceipt) : Nat := b.receipts.countP Receipt.succeeded

/-- The gas used by all transactions, added up in block order. -/
def gasUsed (b : BlockReceipt) : Int64 :=
  b.receipts.foldl (fun total r => Saturating.addSigned total r.gasUsed) 0

end BlockReceipt

end ReplicatedKv
