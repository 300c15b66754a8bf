import Columnar.Options

/-!
# Command-line arguments

The shell is told by its arguments where to connect and as whom. An option can be given once; its
value follows it in the same argument, after an equals sign or directly after a letter, or in the
next one, which then must not look like an option. Arguments are dealt with one after the other, so
of two faults the first one counts, and so does a request for the version.
-/

namespace Columnar.Shell

/-- The options of the command line. -/
inductive Flag where
  | host
  | port
  | database
  | user
  | password
  | noRethrow
  | timeout
  | version
  | help
  deriving DecidableEq, Repr

namespace Flag

/-- The words that stand for options after two hyphens. -/
def words : List (String × Flag) :=
  [("host", .host), ("port", .port), ("database", .database), ("user", .user),
    ("password", .password), ("no-rethrow", .noRethrow), ("timeout", .timeout),
    ("version", .version), ("help", .help)]

/-- The letters that stand for options after one hyphen. -/
def letters : List (Char × Flag) :=
  [('d', .database), ('u', .user), ('V', .version), ('h', .help)]

/-- A value belongs to the option. -/
def takesValue : Flag → Bool
  | .noRethrow | .version | .help => false
  | _ => true

end Flag

/-- What the arguments say. -/
structure Arguments where
  host : String := "localhost"
  port : UInt16 := defaultPort
  database : String := "default"
  user : String := "default"
  /-- Absent if it is left to the environment. -/
  password : Option String := none
  noRethrow : Bool := false
  /-- Seconds after which connecting, reading or writing is given up. -/
  timeout : Option UInt64 := none
  deriving DecidableEq, Repr

/-- What becomes of the arguments. -/
inductive Invocation where
  | run (arguments : Arguments)
  | version
  | help
  | refused
  deriving DecidableEq, Repr

/-- The number that decimal digits make up. -/
def digits? (cs : List Char) : Option Nat :=
  if cs ≠ [] ∧ cs.all Char.isDigit then
    some (cs.foldl (fun n c => 10 * n + (c.toNat - '0'.toNat)) 0)
  else none

/-- The number below `bound` that digits make up, after a plus sign or none. -/
def numberBelow? (bound : Nat) (cs : List Char) : Option Nat :=
  let digits := match cs with
    | '+' :: rest => rest
    | rest => rest
  (digits? digits).filter (· < bound)

/-- A port; zero may be negative. -/
def port? (cs : List Char) : Option Nat :=
  match cs with
  | '-' :: rest => (digits? rest).filter (· = 0)
  | rest => numberBelow? UInt16.size rest

/-- What is left of an argument after an equals sign in front. -/
def afterEquals (cs : List Char) : List Char :=
  match cs with
  | '=' :: rest => rest
  | rest => rest

/-- The arguments so far, and the options that have been given. -/
structure ArgumentState where
  arguments : Arguments := {}
  given : List Flag := []

namespace ArgumentState

/-- Takes note of an option, which must not have been given before. -/
def note (s : ArgumentState) (f : Flag) (set : Arguments → Arguments) : Option ArgumentState :=
  if f ∈ s.given then none else some ⟨set s.arguments, f :: s.given⟩

/-- Takes note of an option and its value. -/
def give (s : ArgumentState) (f : Flag) (value : List Char) : Option ArgumentState :=
  let text := String.ofList value
  match f with
  | .host => s.note f fun a => { a with host := text }
  | .port => (port? value).bind fun n => s.note f fun a => { a with port := UInt16.ofNat n }
  | .database => s.note f fun a => { a with database := text }
  | .user => s.note f fun a => { a with user := text }
  | .password => s.note f fun a => { a with password := some text }
  | .timeout =>
    (numberBelow? UInt64.size value).bind fun n =>
      s.note f fun a => { a with timeout := some (UInt64.ofNat n) }
  | .noRethrow | .version | .help => none

/-- Takes note of an option without a value, or does at once what it asks for. -/
def raise (s : ArgumentState) : Flag → Invocation ⊕ ArgumentState
  | .version => .inl .version
  | .help => .inl .help
  | .noRethrow =>
    match s.note .noRethrow fun a => { a with noRethrow := true } with
    | some s => .inr s
    | none => .inl .refused
  | _ => .inl .refused

end ArgumentState

/-- What may come next on the command line. -/
inductive Expected where
  | option
  | value (f : Flag)
  /-- The options have been closed, and nothing else may follow them. -/
  | nothing
  deriving DecidableEq, Repr

/-- Where the reading of the command line stands after an argument. -/
inductive Progression where
  | done (i : Invocation)
  | next (s : ArgumentState) (expected : Expected)

namespace Progression

/-- Goes on with options after one that was understood. -/
def ofState : Option ArgumentState → Progression
  | some s => .next s .option
  | none => .done .refused

/-- Goes on with options after one without a value. -/
def ofRaised : Invocation ⊕ ArgumentState → Progression
  | .inl i => .done i
  | .inr s => .next s .option

end Progression

namespace ArgumentState

/-- Reads letters; the first option that takes a value has the rest of them as its value. -/
def readLetters (s : ArgumentState) : List Char → Progression
  | [] => .next s .option
  | c :: cs =>
    match Flag.letters.lookup c with
    | none => .done .refused
    | some f =>
      if f.takesValue then
        if cs = [] then .next s (.value f) else .ofState (s.give f (afterEquals cs))
      else
        match s.raise f with
        | .inl i => .done i
        | .inr s => readLetters s cs

/-- Reads a word with the value that an equals sign may join to it. -/
def readWord (s : ArgumentState) (cs : List Char) : Progression :=
  let name := cs.takeWhile (· != '=')
  match Flag.words.lookup (String.ofList name), cs.drop name.length with
  | none, _ => .done .refused
  | some f, '=' :: value => if f.takesValue then .ofState (s.give f value) else .done .refused
  | some f, _ => if f.takesValue then .next s (.value f) else .ofRaised (s.raise f)

/-- Reads an argument where an option may come. -/
def readOption (s : ArgumentState) : List Char → Progression
  | ['-', '-'] => .next s .nothing
  | '-' :: '-' :: word => s.readWord word
  | '-' :: letter :: letters => s.readLetters (letter :: letters)
  | _ => .done .refused

/-- Reads an argument as the value of an option. -/
def readValue (s : ArgumentState) (f : Flag) : List Char → Progression
  | '-' :: _ :: _ => .done .refused
  | cs => .ofState (s.give f cs)

/-- Reads an argument. -/
def read (s : ArgumentState) (cs : List Char) : Expected → Progression
  | .option => s.readOption cs
  | .value f => s.readValue f cs
  | .nothing => .done .refused

/-- Reads all arguments. -/
def readAll (s : ArgumentState) (expected : Expected) : List (List Char) → Invocation
  | [] =>
    match expected with
    | .value _ => .refused
    | .option | .nothing => .run s.arguments
  | cs :: rest =>
    match s.read cs expected with
    | .done i => i
    | .next s expected => readAll s expected rest

end ArgumentState

/-- What becomes of a command line. -/
def Invocation.parse (arguments : List String) : Invocation :=
  ArgumentState.readAll {} .option (arguments.map String.toList)

/-- The client's options; a password that was not given is taken from the environment. -/
def Arguments.options (a : Arguments) (environment : Option String) (ids : IdCounter) : Options :=
  let o : Options :=
    { host := a.host, port := a.port, database := a.database, user := a.user
      password := (a.password.or environment).getD "", rethrow := !a.noRethrow, queryIds := ids }
  match a.timeout with
  | none => o
  | some seconds => o.withTimeout (1000 * seconds.toNat)

end Columnar.Shell
