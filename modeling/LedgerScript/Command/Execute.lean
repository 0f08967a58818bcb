import LedgerScript.Command.Run
import LedgerScript.Command.Sources

/-!
# Executing a command

The first argument that is no flag names the command.  Its other arguments are counted before it starts.
-/

/-!
## Looking at a ledger on disk

The blocks and the accounts of the ledger that the settings name, and whether its chain holds.
-/

namespace LedgerScript.ChainCommand

def knownOfBlocks : List Flag :=
  [⟨"txs", .switch⟩]

/-- The store of the ledger around a folder. -/
def openStore (o : CommandOptions) (args : List Bytes) : CommandM Store := do
  let settings ← o.settingsNear (args.headD (utf8 "."))
  if settings.ledger.store ≠ utf8 "leveldb" then throw (.notPersisted settings.ledger.store)
  let t ← CommandM.tree
  let _ ← CommandM.lift (.noChain settings.storePath) (t.inspect settings.storePath)
  return .ofFolder t settings.storePath

def purpose (tx : Transaction) : Bytes :=
  if tx.code ≠ [] then utf8 "deploy " ++ tx.code
  else if tx.method = [] then utf8 "transfer"
  else tx.method

def blockTable (blocks : List ChainBlock) : Table where
  heading := ["block", "txs", "sealed", "prev", "hash"].map utf8
  rows := blocks.map fun b =>
    [Text.decimal b.number, Text.decimal b.txs.length, utf8 (if b.isSealed then "true" else "false"),
      Digest.short b.prevHash, Digest.short b.hash]

def transactionTable (blocks : List ChainBlock) : Table where
  heading := ["block", "id", "from", "to", "amount", "call"].map utf8
  rows := blocks.flatMap fun b => b.txs.map fun tx =>
    [Text.decimal b.number, tx.id.take 8, tx.sender, tx.receiver, Text.decimalInt tx.amount, purpose tx]

def accountTable (accounts : List Account) : Table where
  heading := ["address", "balance", "nonce", "contract", "storage"].map utf8
  rows := accounts.map fun a =>
    [a.address, Text.decimalInt a.balance, Text.decimal a.nonce, a.code, Text.decimal a.storage.length]

def listBlocks (o : CommandOptions) (args : List Bytes) : CommandM Unit := do
  let store ← openStore o args
  let (blocks, _) ← CommandM.lift .store (store.loadBlocks {})
  CommandM.write (blockTable blocks).text
  if o.flags.switch "txs" then
    CommandM.write (utf8 "\n" ++ (transactionTable blocks).text)

def listAccounts (o : CommandOptions) (args : List Bytes) : CommandM Unit := do
  let store ← openStore o args
  let (accounts, _) ← CommandM.lift .store (store.loadAccounts {})
  CommandM.write (accountTable accounts).text

/-- The hashes are computed again and compared. -/
def verify (o : CommandOptions) (args : List Bytes) : CommandM Unit := do
  let store ← openStore o args
  let (blocks, heap) ← CommandM.lift .store (store.loadBlocks {})
  match verifyBlocks heap blocks with
  | some f => throw (.chain f)
  | none => if !o.isQuiet then CommandM.write (utf8 s!"ok: {blocks.length} blocks verified\n")

end LedgerScript.ChainCommand

/-! ## Choosing the command -/

namespace LedgerScript

/-- How many arguments a command takes. -/
inductive ArgumentCount where
  | any
  | atMost (n : Nat)
  | atLeast (n : Nat)
  | exactly (n : Nat)
  deriving DecidableEq, Repr, Inhabited

def ArgumentCount.refuse? (command : Bytes) (args : List Bytes) : ArgumentCount → Option CommandFault
  | any => none
  | atMost n => if args.length > n then some (.tooMany n args.length) else none
  | atLeast n => if args.length < n then some (.tooFew n args.length) else none
  | exactly 0 => args.head?.map fun a => .unexpected a command
  | exactly n => if args.length ≠ n then some (.notExactly n args.length) else none

structure CommandSpec where
  name : Bytes
  known : List Flag := []
  count : ArgumentCount := .any
  execute : CommandOptions → List Bytes → CommandM Unit

namespace CommandSpec

def all : List CommandSpec :=
  [{ name := utf8 "tokenize", known := ListingCommand.known, count := .exactly 1
     execute := fun o args => ListingCommand.tokens o (args.headD []) },
    { name := utf8 "parse", known := ListingCommand.known, count := .exactly 1
      execute := fun o args => ListingCommand.tree o (args.headD []) },
    { name := utf8 "fmt", known := FormatCommand.known, count := .atLeast 1, execute := FormatCommand.execute },
    { name := utf8 "run", known := RunCommand.known, count := .atMost 1, execute := RunCommand.execute },
    { name := utf8 "check", known := CheckCommand.known, execute := CheckCommand.execute },
    { name := utf8 "version", known := ListingCommand.known, count := .exactly 0
      execute := fun o _ => ListingCommand.release o }]

def ofLedger : List CommandSpec :=
  [{ name := utf8 "blocks", known := ChainCommand.knownOfBlocks, count := .atMost 1, execute := ChainCommand.listBlocks },
    { name := utf8 "balances", count := .atMost 1, execute := ChainCommand.listAccounts },
    { name := utf8 "verify", count := .atMost 1, execute := ChainCommand.verify }]

def find (args : List Bytes) : Except CommandFault (CommandSpec × List Bytes) :=
  match Flags.splitCommand? CommandOptions.known args with
  | none => .error .noCommand
  | some (name, rest) =>
    if name = utf8 "ledger" then
      match Flags.splitCommand? CommandOptions.known rest with
      | none => .error .noCommand
      | some (name, rest) =>
        match ofLedger.find? (·.name == name) with
        | some c => .ok (c, rest)
        | none => .error .noCommand
    else
      match all.find? (·.name == name) with
      | some c => .ok (c, rest)
      | none => .error (.unknownCommand name)

def perform (c : CommandSpec) (args : List Bytes) : CommandM Unit := do
  let (flags, others) ← CommandM.lift .flags (Flags.read (CommandOptions.known ++ c.known) {} args)
  if let some f := c.count.refuse? c.name others then throw f
  c.execute (← CommandOptions.ofFlags flags) others

end CommandSpec

/-- What a command leaves behind: what it wrote, and whether it ended well. -/
structure CommandResult where
  isOk : Bool
  output : Bytes
  errors : Bytes
  deriving Repr, Inhabited

def Workspace.execute (w : Workspace) (args : List Bytes) : CommandResult × Workspace :=
  let work : CommandM Unit := do
    let (c, rest) ← CommandM.lift id (CommandSpec.find args)
    c.perform rest
  let (r, s) := work.run.run { space := w }
  let errors := match r with
    | .ok _ | .error .reported => s.errors
    | .error f => (utf8 "error: " ++ f.text ++ utf8 "\n") :: s.errors
  ({ isOk := r.isOk, output := s.output.reverse.flatten, errors := errors.reverse.flatten }, s.space)

def Workspace.executeAll (w : Workspace) : List (List Bytes) → List CommandResult × Workspace
  | [] => ([], w)
  | args :: rest =>
    let (r, w) := w.execute args
    let (rs, w) := w.executeAll rest
    (r :: rs, w)

end LedgerScript
