import ProtocolPages.Text.CharClass
import ProtocolPages.Text.Quoted

/-!
# Command line options

The arguments of the command are read in two passes. The first decides for each argument whether it
is an option, and which; a long option may be shortened as long as it stays unambiguous. The second
acts on the arguments from left to right. The trees are the first run of arguments that belong to no
option; later ones are not recognized.

Releases of the library that reads the arguments differ in two points, and the model follows an
older one. A double dash is never a value here: an option that has one written directly after it is
left without a value, whereas later releases take the double dash for the value. And the letters of
an argument with one dash are taken apart before any of them has an effect, so an unknown letter is
an error whatever stands in front of it; an equals sign behind the first letter is passed over, and
one further back is part of a value.
-/

namespace ProtocolPages.Command

/-- The options. -/
inductive Flag where
  /-- Show the help text. -/
  | help
  /-- Choose the output folder. -/
  | output
  /-- Choose a settings file. -/
  | config
  /-- Show details. -/
  | verbose
  /-- Show warnings only. -/
  | quiet
  /-- Show the version. -/
  | version
  deriving DecidableEq, Repr

/-- The spellings of the options, in the order in which they are searched. -/
def spellings : List (String × Flag) :=
  [("-h", .help), ("--help", .help), ("-o", .output), ("--output", .output), ("--config", .config),
   ("-v", .verbose), ("--verbose", .verbose), ("-q", .quiet), ("--quiet", .quiet),
   ("--version", .version)]

/-- Whether an option takes a value. -/
def Flag.takesValue : Flag → Bool
  | output | config => true
  | _ => false

/-- The name of an option in messages. -/
def Flag.label : Flag → String
  | help => "-h/--help"
  | output => "-o/--output"
  | config => "--config"
  | verbose => "-v/--verbose"
  | quiet => "-q/--quiet"
  | version => "--version"

/-- The error that an option is used wrongly. -/
def Flag.complaint (flag : Flag) (detail : String) : String :=
  "argument " ++ flag.label ++ ": " ++ detail

/-- An argument that is an option. -/
structure OptionUse where
  /-- The option. -/
  flag : Flag
  /-- Whether it is spelled with two dashes. -/
  isLong : Bool
  /-- The value written in the same argument, if any. -/
  attached : Option (List Char)

/-- What an argument is. -/
inductive ArgKind where
  /-- An argument that belongs to no option. -/
  | plain
  /-- The double dash after which everything is plain. -/
  | separator
  /-- An option. -/
  | option (use : OptionUse)
  /-- Something that looks like an option and is none. -/
  | unknown

/-- Whether an option is spelled with two dashes. -/
def isLongSpelling (spelling : String) : Bool :=
  "--".toList.isPrefixOf spelling.toList

/-- Whether characters form a number with a minus sign: digits, or a fraction with a point. A line
feed at the end does not count. -/
def isNegativeNumber (cs : List Char) : Bool :=
  match cs with
  | '-' :: rest =>
    let rest := if rest.getLast? = some '\n' then rest.dropLast else rest
    let whole := rest.takeWhile Text.isDecimalDigit
    match rest.drop whole.length with
    | [] => !whole.isEmpty
    | '.' :: places => !places.isEmpty && places.all Text.isDecimalDigit
    | _ => false
  | _ => false

/-- The part before the first equals sign, and the part after it if there is one. -/
def splitEquals (cs : List Char) : List Char × Option (List Char) :=
  let name := cs.takeWhile (· != '=')
  match cs.drop name.length with
  | _ :: value => (name, some value)
  | [] => (name, none)

/-- The options that an argument with dashes may mean, with their spellings. After two dashes every
option counts that starts with what stands before the equals sign; after one dash the letter is the
option and the rest its value. -/
def candidates (cs : List Char) : List (String × OptionUse) :=
  match cs with
  | '-' :: '-' :: _ =>
    let (name, value) := splitEquals cs
    (spellings.filter fun (spelling, _) => name.isPrefixOf spelling.toList).map
      fun (spelling, flag) =>
        (spelling, ⟨flag, isLongSpelling spelling, value⟩)
  | dash :: letter :: rest =>
    (spellings.filter fun (spelling, _) => spelling.toList = [dash, letter]).map
      fun (spelling, flag) => (spelling, ⟨flag, false, some rest⟩)
  | _ => []

/-- Decide what an argument is. An ambiguous option is an error. -/
def classify (arg : String) : Except String ArgKind :=
  let cs := arg.toList
  match cs with
  | '-' :: _ :: _ =>
    match spellings.lookup arg with
    | some flag => .ok (.option ⟨flag, isLongSpelling arg, none⟩)
    | none =>
      match splitEquals cs with
      | (name, some value) =>
        match spellings.lookup (String.ofList name) with
        | some flag =>
          .ok (.option ⟨flag, isLongSpelling (String.ofList name), some value⟩)
        | none => search cs
      | _ => search cs
  | _ => .ok .plain
where
  /-- Decide by the options that the argument may mean. -/
  search (cs : List Char) : Except String ArgKind :=
    match candidates cs with
    | [(_, use)] => .ok (.option use)
    | [] => .ok (if isNegativeNumber cs || cs.contains ' ' then .plain else .unknown)
    | several => .error ("ambiguous option: " ++ arg ++ " could match " ++
        String.intercalate ", " (several.map Prod.fst))

/-- Decide what each argument is. After a double dash everything is plain. -/
def classifyAll : List String → Except String (List (String × ArgKind))
  | [] => .ok []
  | "--" :: rest => .ok (("--", .separator) :: rest.map (·, .plain))
  | arg :: rest => do
    let kind ← classify arg
    return (arg, kind) :: (← classifyAll rest)

/-- What one argument asks for: options with their values, and perhaps one more option whose value
is the next argument. -/
structure Cluster where
  /-- The options that are complete, in order, with their values if they have any. -/
  actions : List (Flag × Option String)
  /-- The option that waits for a value. -/
  waiting : Option Flag

/-- A cluster of one option that has no value in the same argument. -/
def Cluster.single (flag : Flag) : Cluster :=
  if flag.takesValue then ⟨[], some flag⟩ else ⟨[(flag, none)], none⟩

/-- Put a complete option in front of a cluster. -/
def Cluster.push (flag : Flag) (c : Cluster) : Cluster :=
  { c with actions := (flag, none) :: c.actions }

/-- The error that an option without a value was given one. -/
def ignoredValue (flag : Flag) (value : List Char) : String :=
  flag.complaint ("ignored explicit argument " ++ Text.quoted (String.ofList value))

/-- The option with the given letter. -/
def letterFlag? (letter : Char) : Option Flag :=
  spellings.lookup (String.ofList ['-', letter])

/-- The value that characters directly after an option stand for. A double dash stands for none. -/
def attachedValue (cs : List Char) : Option String :=
  if cs = ['-', '-'] then none else some (String.ofList cs)

/-- Take apart what stands directly after an option with one dash: its value, or the letters of
more options. -/
def expandLetters (flag : Flag) : List Char → Except String Cluster
  | [] =>
    if flag.takesValue then .ok ⟨[(flag, attachedValue [])], none⟩
    else .error (ignoredValue flag [])
  | letter :: rest =>
    if flag.takesValue then .ok ⟨[(flag, attachedValue (letter :: rest))], none⟩
    else
      match letterFlag? letter, rest with
      | none, _ => .error (ignoredValue flag (letter :: rest))
      | some next, [] => .ok ((Cluster.single next).push flag)
      | some next, rest => (expandLetters next rest).map (Cluster.push flag)

/-- Take an option argument apart. -/
def OptionUse.expand (use : OptionUse) : Except String Cluster :=
  match use.attached with
  | none => .ok (Cluster.single use.flag)
  | some value =>
    if use.isLong && !use.flag.takesValue then .error (ignoredValue use.flag value)
    else expandLetters use.flag value

/-- What the arguments asked for so far. -/
structure Options where
  /-- The trees, once a run of plain arguments was met. -/
  trees : List String
  /-- The output folder, unless the option for it was left without a value. -/
  output : Option String
  /-- The settings file, if one is asked for. -/
  config : Option String
  /-- Whether details are shown. -/
  verbose : Bool
  /-- Whether only warnings are shown. -/
  quiet : Bool
  /-- The arguments that were not recognized. -/
  unrecognized : List String
  /-- Whether the run of trees may go on. -/
  inRun : Bool
  deriving Repr

/-- What is asked for before any argument is read. -/
def Options.initial : Options :=
  ⟨[], some "docs", none, false, false, [], false⟩

/-- What the command is asked to do. -/
inductive Invocation where
  /-- Show the help text. -/
  | help
  /-- Show the version. -/
  | version
  /-- The arguments are wrong. -/
  | usageError (message : String)
  /-- Generate documents. -/
  | run (options : Options)
  deriving Repr

/-- Act on an option. Help and version end the reading, and details and quiet exclude each other. -/
def act (options : Options) (flag : Flag) (value : Option String) : Except Invocation Options :=
  match flag with
  | .help => .error .help
  | .version => .error .version
  | .output => .ok { options with output := value }
  | .config => .ok { options with config := value }
  | .verbose =>
    if options.quiet then
      .error (.usageError (Flag.verbose.complaint "not allowed with argument -q/--quiet"))
    else .ok { options with verbose := true }
  | .quiet =>
    if options.verbose then
      .error (.usageError (Flag.quiet.complaint "not allowed with argument -v/--verbose"))
    else .ok { options with quiet := true }

/-- Act on several options. -/
def actAll (options : Options) : List (Flag × Option String) → Except Invocation Options
  | [] => .ok options
  | (flag, value) :: rest => do actAll (← act options flag value) rest

/-- Note an argument that was not recognized. -/
def Options.reject (options : Options) (arg : String) : Options :=
  { options with unrecognized := options.unrecognized ++ [arg] }

/-- Take a plain argument as a tree, unless the run of trees is over. -/
def Options.takePlain (options : Options) (arg : String) : Options :=
  if options.trees.isEmpty || options.inRun then
    { options with trees := options.trees ++ [arg], inRun := true }
  else options.reject arg

/-- Pass over the double dash, which does not end a run of trees. -/
def Options.takeSeparator (options : Options) : Options :=
  if options.trees.isEmpty || options.inRun then { options with inRun := true }
  else options.reject "--"

/-- Act on the arguments from left to right. -/
def actArgs (options : Options) : List (String × ArgKind) → Except Invocation Options
  | [] => .ok options
  | (arg, .plain) :: rest => actArgs (options.takePlain arg) rest
  | (_, .separator) :: rest => actArgs options.takeSeparator rest
  | (arg, .unknown) :: rest => actArgs ({ options with inRun := false }.reject arg) rest
  | (_, .option use) :: rest =>
    match use.expand with
    | .error message => .error (.usageError message)
    | .ok cluster =>
      match cluster.waiting, rest with
      | none, rest => do
        actArgs (← actAll { options with inRun := false } cluster.actions) rest
      | some flag, (value, .plain) :: rest => do
        let actions := cluster.actions ++ [(flag, some value)]
        actArgs (← actAll { options with inRun := false } actions) rest
      | some flag, _ => .error (.usageError (flag.complaint "expected one argument"))

/-- Read the arguments of the command. -/
def parse (args : List String) : Invocation :=
  match classifyAll args with
  | .error message => .usageError message
  | .ok kinds =>
    match actArgs .initial kinds with
    | .error invocation => invocation
    | .ok options =>
      if options.trees.isEmpty then
        .usageError "the following arguments are required: trees"
      else if !options.unrecognized.isEmpty then
        .usageError ("unrecognized arguments: " ++ String.intercalate " " options.unrecognized)
      else .run options

end ProtocolPages.Command
