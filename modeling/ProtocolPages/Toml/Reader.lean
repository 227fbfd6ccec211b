import ProtocolPages.Text.Encoding
import ProtocolPages.Toml.Lexeme
import ProtocolPages.Toml.Table

/-!
# Reading settings files

A settings file is a sequence of lines: entries, table headers and comments. An entry writes a value
at a path of keys below the current header. A table can be opened once; the tables that dotted keys
run through cannot be opened again once their section is over, and lists and tables given as values
are closed from the start. Nesting may be of any depth here, while an interpreter that reads nested
values by recursion gives up at a depth of its own. A file that cannot be read is told from one that
can, but not what is wrong with it and where.

Every reading function returns what is left of the text, with a proof that something was used up.
-/

namespace ProtocolPages.Toml

/-- What is left after something was used up. -/
abbrev Rest (cs : List Char) := { rest : List Char // rest.length < cs.length }

/-- Whether a character can stand in a key without quotes. -/
def isBareKeyChar (c : Char) : Bool :=
  c.isAlphanum || c = '-' || c = '_'

/-- Whether a character opens a quoted text. -/
def isQuote (c : Char) : Bool :=
  c = '"' || c = '\''

/-- What is left of `c :: tail` after `c` and some of `tail`. -/
def restAfter (c : Char) (tail : List Char) (used : Nat) : Rest (c :: tail) :=
  ⟨tail.drop used, Json.length_drop_lt c tail used⟩

/-- Read one part of a key. -/
def readKeyPart (cs : List Char) : Except ReadError (String × Rest cs) :=
  match cs with
  | [] => .error .malformed
  | c :: tail =>
    if isBareKeyChar c then
      let more := tail.takeWhile isBareKeyChar
      .ok (String.ofList (c :: more), restAfter c tail more.length)
    else if isQuote c then do
      let (part, used) ← scanLineText c tail
      return (part, restAfter c tail used)
    else .error .malformed

/-- Read a key, whose parts are separated by dots, and the space after it. -/
def readKey (cs : List Char) : Except ReadError (Key × Rest cs) := do
  let (part, ⟨after, hafter⟩) ← readKeyPart cs
  match hdot : skipSpace after with
  | '.' :: inner =>
    have hless : (skipSpace inner).length < cs.length :=
      Nat.lt_of_le_of_lt (length_skipSpace_le inner)
        (Nat.lt_trans (length_lt_of_skipSpace hdot) hafter)
    let (parts, ⟨rest, hrest⟩) ← readKey (skipSpace inner)
    return (part :: parts, ⟨rest, Nat.lt_trans hrest hless⟩)
  | other =>
    return ([part], ⟨other, Nat.lt_of_le_of_lt (hdot ▸ length_skipSpace_le after) hafter⟩)
termination_by cs.length
decreasing_by exact hless

/-- Read a key and the equals sign after it, with the space around them. -/
def readKeyEquals (cs : List Char) : Except ReadError (Key × Rest cs) := do
  let (key, ⟨rest, hrest⟩) ← readKey cs
  match hequals : rest with
  | '=' :: value =>
    return (key, ⟨skipSpace value, by
      have := length_skipSpace_le value
      simp only [hequals, List.length_cons] at hrest
      omega⟩)
  | _ => .error .malformed

mutual

/-- Read a value. -/
def readValue (cs : List Char) : Except ReadError (Value × Rest cs) :=
  match hcs : cs with
  | [] => .error .malformed
  | c :: tail =>
    if isQuote c then do
      let (s, used) ← scanText c tail
      return (.text s, restAfter c tail used)
    else if c = '[' then do
      let (items, ⟨rest, hrest⟩) ← readItems tail
      return (.array items, ⟨rest, Nat.lt_succ_of_lt hrest⟩)
    else if c = '\x7b' then
      match hskip : skipSpace tail with
      | '\x7d' :: rest => .ok (.table [], ⟨rest, by
          have := length_skipSpace_le tail
          simp only [hskip, List.length_cons] at this ⊢
          omega⟩)
      | _ => do
        let (table, ⟨rest, hrest⟩) ← readInline [] [] tail
        return (.table table, ⟨rest, Nat.lt_succ_of_lt hrest⟩)
    else do
      let (v, width) ← scanPlain (c :: tail)
      return (v, restAfter c tail (width - 1))
termination_by (cs.length, 0)
decreasing_by all_goals (subst hcs; simp only [List.length_cons]; omega)

/-- Read the items of a list up to and including its end. A comma may stand before the end. -/
def readItems (cs : List Char) : Except ReadError (List Value × Rest cs) := do
  let ⟨start, hstart⟩ ← skipFiller cs
  match hhead : start with
  | ']' :: rest => return ([], ⟨rest, by
      simp only [hhead, List.length_cons] at hstart
      omega⟩)
  | _ =>
    let (item, ⟨rest, hrest⟩) ← readValue start
    let ⟨next, hnext⟩ ← skipFiller rest
    match hend : next with
    | ']' :: after => return ([item], ⟨after, by
        simp only [hend, List.length_cons] at hnext
        omega⟩)
    | ',' :: after =>
      have hless : after.length < cs.length := by
        simp only [hend, List.length_cons] at hnext
        omega
      let (items, ⟨rest, hrest⟩) ← readItems after
      return (item :: items, ⟨rest, Nat.lt_trans hrest hless⟩)
    | _ => .error .malformed
termination_by (cs.length, 1)
decreasing_by all_goals omega

/-- Read the entries of a table on one line up to and including its end, after the entries of
`table`. The paths in `closed` lead to lists and tables of earlier entries. -/
def readInline (closed : List Key) (table : Table) (cs : List Char) :
    Except ReadError (Table × Rest cs) := do
  have hspace := length_skipSpace_le cs
  let (key, ⟨afterKey, hkey⟩) ← readKeyEquals (skipSpace cs)
  let (v, ⟨afterValue, hvalue⟩) ← readValue afterKey
  have hrest : afterValue.length < cs.length :=
    Nat.lt_of_lt_of_le (Nat.lt_trans hvalue hkey) hspace
  if runsInto closed key then .error .malformed
  else
    let table ← table.addAt false key v
    match hend : skipSpace afterValue with
    | '\x7d' :: rest =>
      return (table, ⟨rest, Nat.lt_trans (length_lt_of_skipSpace hend) hrest⟩)
    | ',' :: rest =>
      have hless : rest.length < cs.length :=
        Nat.lt_trans (length_lt_of_skipSpace hend) hrest
      let closed := if v.isComposite then key :: closed else closed
      let (table, ⟨rest, hrest⟩) ← readInline closed table rest
      return (table, ⟨rest, Nat.lt_trans hrest hless⟩)
    | _ => .error .malformed
termination_by (cs.length, 1)
decreasing_by all_goals omega

end

/-- A document while it is being read. -/
structure Reading where
  /-- The table of the whole document. -/
  root : Table
  /-- The path of the current header. -/
  header : Key
  /-- The paths of lists and tables that were given as values. -/
  closed : List Key
  /-- The paths of tables that cannot be opened by a header or run through by a dotted key. -/
  opened : List Key
  /-- The paths that join `opened` when the section ends. -/
  pending : List Key

/-- The paths that a dotted key runs through below a header. -/
def pathsThrough (header key : Key) : List Key :=
  ((List.range key.length).drop 1).map fun n => header ++ key.take n

namespace Reading

/-- Write an entry below the current header. -/
def addEntry (r : Reading) (key : Key) (v : Value) : Except ReadError Reading := do
  let through := pathsThrough r.header key
  if through.any r.opened.contains || runsInto r.closed (r.header ++ key.dropLast) then
    .error .malformed
  else
    let root ← r.root.addAt true (r.header ++ key) v
    let closed := if v.isComposite then (r.header ++ key) :: r.closed else r.closed
    return { r with root := root, closed := closed, pending := through ++ r.pending }

/-- End the current section. -/
def endSection (r : Reading) : Reading :=
  { r with opened := r.pending ++ r.opened, pending := [] }

/-- Open a table by a header. -/
def openTable (r : Reading) (key : Key) : Except ReadError Reading := do
  if r.opened.contains key || runsInto r.closed key then .error .malformed
  else
    let root ← r.root.update true .ok key
    return { r with root := root, header := key, opened := key :: r.opened }

/-- Start the next table of a list by a header. What was known about the table before it is
forgotten. -/
def openListTable (r : Reading) (key : Key) : Except ReadError Reading := do
  if runsInto r.closed key then .error .malformed
  else
    match key.getLast? with
    | none => .error .malformed
    | some last =>
      let root ← r.root.update true (Table.addToList last) key.dropLast
      let outside (path : Key) := !key.isPrefixOf path
      return { r with
        root := root, header := key, closed := r.closed.filter outside,
        opened := key :: r.opened.filter outside }

end Reading

/-- Read a header after its first bracket. -/
def readHeader (r : Reading) : (tail : List Char) → Except ReadError (Reading × Rest tail)
  | '[' :: tail => do
    have hspace := length_skipSpace_le tail
    let (key, ⟨rest, hrest⟩) ← readKey (skipSpace tail)
    match hclose : rest with
    | ']' :: ']' :: after =>
      return (← r.endSection.openListTable key, ⟨after, by
        simp only [hclose, List.length_cons] at hrest ⊢
        omega⟩)
    | _ => .error .malformed
  | tail => do
    have hspace := length_skipSpace_le tail
    let (key, ⟨rest, hrest⟩) ← readKey (skipSpace tail)
    match hclose : rest with
    | ']' :: after =>
      return (← r.endSection.openTable key, ⟨after, by
        simp only [hclose, List.length_cons] at hrest
        omega⟩)
    | _ => .error .malformed

/-- Read the end of a line, or of the text. -/
def readLineEnd (cs : List Char) :
    Except ReadError { rest : List Char // rest.length ≤ cs.length } :=
  match cs with
  | [] => .ok ⟨[], Nat.le_refl _⟩
  | '\n' :: rest => .ok ⟨rest, Nat.le_succ _⟩
  | _ => .error .malformed

/-- Read the rest of a comment and the end of its line. -/
def readComment (cs : List Char) :
    Except ReadError { rest : List Char // rest.length ≤ cs.length } := do
  if (cs.takeWhile (· != '\n')).any isIllegal then .error .malformed
  else
    let ⟨rest, hrest⟩ ← readLineEnd (cs.dropWhile (· != '\n'))
    return ⟨rest, Nat.le_trans hrest (List.dropWhile_sublist _).length_le⟩

/-- Read what may follow a statement on its line. -/
def readTrailer (cs : List Char) :
    Except ReadError { rest : List Char // rest.length ≤ cs.length } := do
  have hspace := length_skipSpace_le cs
  match hskip : skipSpace cs with
  | '#' :: rest =>
    let ⟨rest, hrest⟩ ← readComment rest
    return ⟨rest, by
      simp only [hskip, List.length_cons] at hspace
      omega⟩
  | other =>
    let ⟨rest, hrest⟩ ← readLineEnd other
    return ⟨rest, by
      rw [hskip] at hspace
      omega⟩

/-- Read a statement that starts with the given character. -/
def readStatement (r : Reading) (c : Char) (tail : List Char) :
    Except ReadError (Reading × Rest (c :: tail)) := do
  if c = '[' then
    let (r, ⟨rest, hrest⟩) ← readHeader r tail
    return (r, ⟨rest, Nat.lt_succ_of_lt hrest⟩)
  else if isBareKeyChar c || isQuote c then
    let (key, ⟨rest, hrest⟩) ← readKeyEquals (c :: tail)
    let (v, ⟨rest, hvalue⟩) ← readValue rest
    return (← r.addEntry key v, ⟨rest, Nat.lt_trans hvalue hrest⟩)
  else .error .malformed

/-- Read all lines. -/
def readLines (r : Reading) (cs : List Char) : Except ReadError Reading := do
  have hspace := length_skipSpace_le cs
  match hskip : skipSpace cs with
  | [] => return r
  | '\n' :: rest =>
    have hless : rest.length < cs.length := by
      simp only [hskip, List.length_cons] at hspace
      omega
    readLines r rest
  | '#' :: rest =>
    let ⟨rest, hrest⟩ ← readComment rest
    have hless : rest.length < cs.length := by
      simp only [hskip, List.length_cons] at hspace
      omega
    readLines r rest
  | c :: tail =>
    let (r, ⟨rest, hrest⟩) ← readStatement r c tail
    let ⟨rest, htrailer⟩ ← readTrailer rest
    have hless : rest.length < cs.length := by
      simp only [hskip, List.length_cons] at hspace hrest
      omega
    readLines r rest
termination_by cs.length
decreasing_by all_goals exact hless

/-- Read a whole settings file. -/
def read (text : String) : Except ReadError Table := do
  let r ← readLines ⟨[], [], [], [], []⟩ (Text.joinLineEnds text.toList)
  return r.root

end ProtocolPages.Toml
