import ChatRelay.Config

/-! # The command line

Every setting has a flag and an environment variable; the flag beats the variable and the variable
beats the default. A flag's value is looked at only when the next flag comes or the arguments end,
so an argument that is not known is reported first.
-/

namespace ChatRelay

inductive Flag where
  | bind
  | users
  | maxSessions
  | workers
  | ioThreads
  | recvBufferSize
  | readChunk
  | sendSlotSize
  | maxSendBacklog
  | completionQueueDepth
  | tokenTtlSecs
  | idleTimeoutSecs
deriving DecidableEq, Repr

inductive UsageError where
  | help
  | version
  | unknownArgument (argument : String)
  | missingValue (flag : Flag)
  | badValue (flag : Flag)
  | repeated (flag : Flag)
  | unexpectedValue (argument : String)
deriving DecidableEq, Repr

namespace Flag

/-- In the order in which variables are looked at. -/
def all : List Flag :=
  [bind, users, maxSessions, workers, ioThreads, recvBufferSize, readChunk, sendSlotSize,
    maxSendBacklog, completionQueueDepth, tokenTtlSecs, idleTimeoutSecs]

def name : Flag → String
  | bind => "bind"
  | users => "users"
  | maxSessions => "max-sessions"
  | workers => "workers"
  | ioThreads => "io-threads"
  | recvBufferSize => "recv-buffer-size"
  | readChunk => "read-chunk"
  | sendSlotSize => "send-slot-size"
  | maxSendBacklog => "max-send-backlog"
  | completionQueueDepth => "completion-queue-depth"
  | tokenTtlSecs => "token-ttl-secs"
  | idleTimeoutSecs => "idle-timeout-secs"

def ofName? (s : String) : Option Flag :=
  all.find? (·.name = s)

def capitals (f : Flag) : String :=
  f.name.map fun c => if c = '-' then '_' else c.toUpper

def variableName (f : Flag) : String :=
  "SWITCHBOARD_" ++ f.capitals

def label (f : Flag) : String :=
  s!"--{f.name} <{f.capitals}>"

/-- A decimal number below 2 ^ 64, which a plus sign may precede. -/
def number? (s : String) : Option UInt64 :=
  let ds :=
    match s.toList with
    | '+' :: ds => ds
    | ds => ds
  if ds ≠ [] ∧ ds.all Char.isDigit then
    let n := ds.foldl (fun n d => 10 * n + (d.toNat - '0'.toNat)) 0
    if n < UInt64.size then some (UInt64.ofNat n) else none
  else none

def apply (f : Flag) (text : String) (c : Config) : Except UsageError Config :=
  let number (g : UInt64 → Config) : Except UsageError Config :=
    match number? text with
    | some n => .ok (g n)
    | none => .error (.badValue f)
  match f with
  | bind =>
    match SocketAddress.parse? text with
    | some a => .ok { c with bind := a }
    | none => .error (.badValue f)
  | users => if text = "" then .error (.missingValue f) else .ok { c with users := text }
  | maxSessions => number fun n => { c with maxSessions := n }
  | workers => number fun n => { c with workers := n }
  | ioThreads => number fun n => { c with ioThreads := n }
  | recvBufferSize => number fun n => { c with recvBufferSize := n }
  | readChunk => number fun n => { c with readChunk := n }
  | sendSlotSize => number fun n => { c with sendSlotSize := n }
  | maxSendBacklog => number fun n => { c with maxSendBacklog := n }
  | completionQueueDepth => number fun n => { c with completionQueueDepth := n }
  | tokenTtlSecs => number fun n => { c with tokenTtlSecs := n }
  | idleTimeoutSecs => number fun n => { c with idleTimeoutSecs := n }

end Flag

def UsageError.message : UsageError → String
  | help => String.intercalate "\n" ("Options:" :: Flag.all.map Flag.label)
  | version => "chat relay 0.2.0"
  | unknownArgument argument => s!"unexpected argument '{argument}'"
  | missingValue flag => s!"a value is required for '{flag.label}'"
  | badValue flag => s!"invalid value for '{flag.label}'"
  | repeated flag => s!"'{flag.label}' cannot be used multiple times"
  | unexpectedValue argument => s!"unexpected value for '{argument}'"

inductive Argument where
  /-- Two dashes alone: nothing after them is a flag. -/
  | endOfFlags
  | long (name : String) (value : Option String)
  | short (first : Char)
  | plain (text : String)
deriving DecidableEq, Repr

def Argument.ofString (s : String) : Argument :=
  match s.toList with
  | ['-', '-'] => .endOfFlags
  | '-' :: '-' :: cs =>
    let name := String.ofList (cs.takeWhile (· ≠ '='))
    match cs.dropWhile (· ≠ '=') with
    | [] => .long name none
    | _ :: value => .long name (some (String.ofList value))
  | '-' :: c :: _ => .short c
  | _ => .plain s

/-- The settings read so far, the flags that were given, and a flag whose value is still to come or
still to be looked at. -/
structure CommandLine where
  config : Config
  given : List Flag
  pending : Option (Flag × Option String)

namespace CommandLine

def start (defaults : Config) : CommandLine :=
  ⟨defaults, [], none⟩

def assign (l : CommandLine) (f : Flag) (text : String) : Except UsageError CommandLine :=
  if f ∈ l.given then .error (.repeated f)
  else (f.apply text l.config).map fun c => ⟨c, f :: l.given, none⟩

def settle (l : CommandLine) : Except UsageError CommandLine :=
  match l.pending with
  | none => .ok l
  | some (f, none) => .error (.missingValue f)
  | some (f, some text) => l.assign f text

def answer (l : CommandLine) (e : UsageError) : Except UsageError CommandLine :=
  match l.settle with
  | .error e' => .error e'
  | .ok _ => .error e

def long (l : CommandLine) (name : String) (value : Option String) :
    Except UsageError CommandLine :=
  if name = "help" ∨ name = "version" then
    if value.isSome then .error (.unexpectedValue ("--" ++ name))
    else l.answer (if name = "help" then .help else .version)
  else
    match Flag.ofName? name, value with
    | none, _ => .error (.unknownArgument ("--" ++ name))
    | some f, none => l.settle.map fun l => { l with pending := some (f, none) }
    | some f, some text => do (← l.settle).assign f text

def plain (l : CommandLine) (text : String) : Except UsageError CommandLine :=
  match l.pending with
  | some (f, none) => .ok { l with pending := some (f, some text) }
  | _ => .error (.unknownArgument text)

def readAll (l : CommandLine) : List String → Except UsageError CommandLine
  | [] => .ok l
  | s :: rest =>
    match Argument.ofString s with
    | .endOfFlags =>
      match rest with
      | [] => .ok l
      | text :: _ => .error (.unknownArgument text)
    | .long name value =>
      match l.long name value with
      | .error e => .error e
      | .ok l => l.readAll rest
    | .short 'h' => l.answer .help
    | .short 'V' => l.answer .version
    | .short c => .error (.unknownArgument (String.ofList ['-', c]))
    | .plain text =>
      match l.plain text with
      | .error e => .error e
      | .ok l => l.readAll rest

def readVariables (environment : String → Option String) (l : CommandLine) :
    List Flag → Except UsageError CommandLine
  | [] => .ok l
  | f :: fs =>
    match environment f.variableName with
    | none => l.readVariables environment fs
    | some text =>
      if f ∈ l.given then l.readVariables environment fs
      else
        match l.assign f text with
        | .error e => .error e
        | .ok l => l.readVariables environment fs

end CommandLine

namespace Config

def standard : Config :=
  simple ⟨.v4 0 0 0 0, 11021⟩ "./users.json"

/-- The settings that arguments and environment variables ask for. -/
def ofArguments (arguments : List String) (environment : String → Option String) :
    Except UsageError Config := do
  let l ← (CommandLine.start standard).readAll arguments
  let l ← l.settle
  let l ← l.readVariables environment Flag.all
  return l.config

end Config

end ChatRelay
