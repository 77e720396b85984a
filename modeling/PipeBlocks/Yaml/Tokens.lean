import PipeBlocks.Yaml.Markup

/-! The tokens of a YAML text, in order.

Block structure is not written in brackets: tokens that open and close blocks
follow from the columns where lines start. And what a mapping's key is shows only
at the colon after it, so tokens wait in a queue until no key can begin before
them any more. `tokens` gives them out one by one and ends with a problem where
the text has one. -/
namespace PipeBlocks.Yaml

/-- A place where a key may have begun, if a colon follows on the same line. -/
structure PossibleKey where
  mark : Mark
  /-- Nothing else may stand here: the line goes on a block mapping. -/
  required : Bool
  /-- How many tokens come before the key. -/
  position : Nat
deriving DecidableEq, Repr

/-- A key fits on one line and in 1024 bytes. -/
def PossibleKey.isStale (key : PossibleKey) (m : Mark) : Bool :=
  key.mark.line < m.line || key.mark.index + 1024 < m.index

/-- A place that cannot be read past, for a character that may not stand in the text. -/
structure Barrier where
  start : Nat
  /-- The byte offset of the character. -/
  offset : Nat
deriving DecidableEq, Repr

/-- The problem for reading that has come to byte `index`. -/
def Barrier.problem? (b : Barrier) (index : Nat) : Option Problem :=
  if b.start ≤ index then some ⟨.controlCharacter, .byte b.offset, none⟩ else none

/-- Characters are checked in runs of at most 16384 bytes, each when reading comes to it. -/
def runLength : Nat := 16384

/-- The barrier of a text at byte `offset`, in a run that starts at `start`. -/
def barrierFrom (start offset : Nat) : Text → Option Barrier
  | [] => none
  | c :: r =>
    let start := if offset + c.utf8Size ≤ start + runLength then start else offset
    if isAllowed c then barrierFrom start (offset + c.utf8Size) r else some ⟨start, offset⟩

def barrier? (t : Text) : Option Barrier := barrierFrom 0 0 t

structure Lexer where
  cursor : Cursor
  /-- Tokens that have been read and not given out. -/
  queue : List Token := []
  /-- How many tokens have been given out. -/
  given : Nat := 0
  indent : Int := -1
  outerIndents : List Int := []
  /-- Whether a key may begin at the cursor. -/
  keyAllowed : Bool := false
  possibleKey : Option PossibleKey := none
  /-- The possible keys around each open flow collection, the innermost first. -/
  outerKeys : List (Option PossibleKey) := []
  started : Bool := false

namespace Lexer

abbrev LexM := StateT Lexer (Except Problem)

def inFlow (l : Lexer) : Bool := !l.outerKeys.isEmpty

def push (lexeme : Lexeme) (start stop : Mark) : LexM Unit :=
  modify fun l => { l with queue := l.queue ++ [⟨lexeme, start, stop⟩] }

/-- Puts a token of no length in front of the token at `position`. -/
def insert (lexeme : Lexeme) (m : Mark) (position : Nat) : LexM Unit :=
  modify fun l =>
    let (before, after) := l.queue.splitAt (position - l.given)
    { l with queue := before ++ ⟨lexeme, m, m⟩ :: after }

/-- Runs a reader at the cursor. -/
def reading (f : Cursor → Except Problem (α × Cursor)) : LexM α := do
  let (a, k) ← f (← get).cursor
  modify fun l => { l with cursor := k }
  return a

/-- Takes `count` characters as one token. -/
def pushIndicator (lexeme : Lexeme) (count : Nat) : LexM Unit := do
  let start := (← get).cursor.mark
  modify fun l => { l with cursor := l.cursor.skip count }
  push lexeme start (← get).cursor.mark

/-! ### Keys -/

def missingColon (key : PossibleKey) (m : Mark) : Problem :=
  .during .simpleKey key.mark .missingColon m

/-- A key that can have no colon any more is given up, unless it has to have one. -/
def refreshed (m : Mark) : Option PossibleKey → Except Problem (Option PossibleKey)
  | none => .ok none
  | some key =>
    if !key.isStale m then .ok (some key)
    else if key.required then .error (missingColon key m)
    else .ok none

def dropStaleKeys : LexM Unit := do
  let l ← get
  let m := l.cursor.mark
  let outerKeys ← (l.outerKeys.reverse.mapM (refreshed m) : Except Problem _)
  let possibleKey ← (refreshed m l.possibleKey : Except Problem _)
  set { l with outerKeys := outerKeys.reverse, possibleKey }

def removeKey : LexM Unit := do
  let l ← get
  match l.possibleKey with
  | some key => if key.required then throw (missingColon key l.cursor.mark)
  | none => pure ()
  set { l with possibleKey := none }

/-- Notes that a key may begin at the cursor. -/
def saveKey : LexM Unit := do
  let l ← get
  if l.keyAllowed then
    removeKey
    let key : PossibleKey :=
      { mark := l.cursor.mark
        required := !l.inFlow && l.indent = l.cursor.mark.column
        position := l.given + l.queue.length }
    modify fun l => { l with possibleKey := some key }

def allowKey (allowed : Bool) : LexM Unit :=
  modify fun l => { l with keyAllowed := allowed }

/-! ### Indentation -/

/-- Opens a block at `column` if that is further in than the current one. -/
def openBlock (column : Nat) (lexeme : Lexeme) (m : Mark) (position : Option Nat) : LexM Unit := do
  let l ← get
  if !l.inFlow && l.indent < column then
    set { l with indent := column, outerIndents := l.indent :: l.outerIndents }
    insert lexeme m (position.getD (l.given + l.queue.length))

/-- Closes every block that is further in than `column`. -/
def closeBlocks (column : Int) : LexM Unit := do
  let l ← get
  if !l.inFlow then
    let m := l.cursor.mark
    let all := l.indent :: l.outerIndents
    let closed := all.takeWhile (column < ·)
    let ends : List Token := closed.map fun _ => ⟨.blockEnd, m, m⟩
    match all.drop closed.length with
    | [] => pure ()
    | indent :: outerIndents => set { l with indent, outerIndents, queue := l.queue ++ ends }

/-! ### One token -/

/-- Moves to the next token, over white space, comments and a byte order mark at
the start of a line. A line break in block context lets a key begin. -/
def skipToToken : Nat → Lexer → Lexer
  | 0, l => l
  | bound + 1, l =>
    let k := l.cursor
    let k := if k.mark.column = 0 && k.looksAt '\uFEFF' then k.skip 1 else k
    let k := k.skipWhile fun c => c == ' ' || ((l.inFlow || !l.keyAllowed) && c == '\t')
    let k := k.skipComment
    if k.atBreak then
      skipToToken bound { l with cursor := k.skipBreak, keyAllowed := l.keyAllowed || !l.inFlow }
    else { l with cursor := k }

def readStreamEnd : LexM Unit := do
  -- the end of the stream counts as the start of a line
  modify fun l =>
    let m := l.cursor.mark
    if m.column = 0 then l
    else { l with cursor := { l.cursor with mark := { m with line := m.line + 1, column := 0 } } }
  closeBlocks (-1)
  removeKey
  allowKey false
  let m := (← get).cursor.mark
  push .streamEnd m m

/-- Directives and document marks end all blocks. -/
def endBlocks : LexM Unit := do
  closeBlocks (-1)
  removeKey
  allowKey false

def readDocumentMark (lexeme : Lexeme) : LexM Unit := do
  endBlocks
  pushIndicator lexeme 3

def openFlow (lexeme : Lexeme) : LexM Unit := do
  saveKey
  modify fun l => { l with outerKeys := l.possibleKey :: l.outerKeys, possibleKey := none }
  allowKey true
  pushIndicator lexeme 1

def closeFlow (lexeme : Lexeme) : LexM Unit := do
  removeKey
  modify fun l =>
    match l.outerKeys with
    | [] => l
    | key :: outerKeys => { l with possibleKey := key, outerKeys }
  allowKey false
  pushIndicator lexeme 1

def readFlowEntry : LexM Unit := do
  removeKey
  allowKey true
  pushIndicator .flowEntry 1

/-- An indicator that belongs to a block collection opens the block if need be. -/
def enterBlock (lexeme : Lexeme) (refusal : Fault) : LexM Unit := do
  let l ← get
  if !l.inFlow then
    let m := l.cursor.mark
    if !l.keyAllowed then throw (.ofMark refusal m)
    openBlock m.column lexeme m none

def readBlockEntry : LexM Unit := do
  enterBlock .blockSequenceStart .entryNotAllowed
  removeKey
  allowKey true
  pushIndicator .blockEntry 1

def readKey : LexM Unit := do
  enterBlock .blockMappingStart .keyNotAllowed
  removeKey
  allowKey !(← get).inFlow
  pushIndicator .key 1

/-- A colon turns what stands before it into a key. -/
def readValue : LexM Unit := do
  match (← get).possibleKey with
  | some key =>
    insert .key key.mark key.position
    openBlock key.mark.column .blockMappingStart key.mark (some key.position)
    modify fun l => { l with possibleKey := none }
    allowKey false
  | none =>
    enterBlock .blockMappingStart .valueNotAllowed
    allowKey !(← get).inFlow
  pushIndicator .value 1

/-- Reads a node's property or content, which may turn out to be a key. -/
def readContent (f : Cursor → Except Problem (Lexeme × Cursor)) : LexM Unit := do
  saveKey
  allowKey false
  let start := (← get).cursor.mark
  let lexeme ← reading f
  push lexeme start (← get).cursor.mark

def readPlainScalar : LexM Unit := do
  saveKey
  allowKey false
  let l ← get
  let s ← (readPlain l.inFlow l.indent l.cursor : Except Problem _)
  modify fun l => { l with cursor := s.cursor }
  push (.scalar s.text .plain) l.cursor.mark s.cursor.mark
  if s.endsLine then allowKey true

def readBlockScalar (style : Style) : LexM Unit := do
  removeKey
  allowKey true
  let l ← get
  let text ← reading (readBlock style l.indent)
  push (.scalar text style) l.cursor.mark (← get).cursor.mark

/-- Indicators start no plain scalar, save `-`, `?` and `:` before other text. -/
def startsPlain (inFlow : Bool) (c : Char) (after : Text) : Bool :=
  if c == '-' then !after.head?.any isBlank
  else if c == '?' || c == ':' then !inFlow && !gapFollows after
  else !isGap c && !",[]{}#&*!|>'\"%@\x60".toList.contains c

/-- Reads the next token, and the block ends before it. -/
def readToken : LexM Unit := do
  if !(← get).started then
    modify fun l => { l with started := true, keyAllowed := true }
    let m := (← get).cursor.mark
    push .streamStart m m
  else
    modify fun l => skipToToken (l.cursor.rest.length + 1) l
    dropStaleKeys
    closeBlocks (← get).cursor.mark.column
    let l ← get
    let k := l.cursor
    match k.rest with
    | [] => readStreamEnd
    | c :: after =>
      let gap := gapFollows after
      if c = '%' && k.mark.column = 0 then
        endBlocks
        let token ← reading readDirective
        modify fun l => { l with queue := l.queue ++ [token] }
      else if k.atDocumentMark '-' then readDocumentMark .documentStart
      else if k.atDocumentMark '.' then readDocumentMark .documentEnd
      else if c = '[' then openFlow .flowSequenceStart
      else if c = '{' then openFlow .flowMappingStart
      else if c = ']' then closeFlow .flowSequenceEnd
      else if c = '}' then closeFlow .flowMappingEnd
      else if c = ',' then readFlowEntry
      else if c = '-' && gap then readBlockEntry
      else if c = '?' && (l.inFlow || gap) then readKey
      else if c = ':' && (l.inFlow || gap) then readValue
      else if c = '*' then
        readContent fun k => (readName .alias k).map fun (name, k) => (.alias name, k)
      else if c = '&' then
        readContent fun k => (readName .anchor k).map fun (name, k) => (.anchor name, k)
      else if c = '!' then
        readContent fun k => (readTag l.inFlow k).map fun (name, k) => (.tag name, k)
      else if c = '|' && !l.inFlow then readBlockScalar .literal
      else if c = '>' && !l.inFlow then readBlockScalar .folded
      else if c = '\'' then
        readContent fun k => (readQuoted c k).map fun (text, k) => (.scalar text .singleQuoted, k)
      else if c = '"' then
        readContent fun k => (readQuoted c k).map fun (text, k) => (.scalar text .doubleQuoted, k)
      else if startsPlain l.inFlow c after then readPlainScalar
      else throw (.during .nextToken k.mark .noToken k.mark)

/-! ### All tokens -/

/-- Whether a key may still begin before the first token of the queue. -/
def isWaiting (l : Lexer) : Bool :=
  (l.possibleKey :: l.outerKeys).any fun key => key.any (·.position == l.given)

/-- Gives out the next token, or reads on if none is ready. -/
def step : LexM (Option Token) := do
  if (← get).queue ≠ [] then dropStaleKeys
  let l ← get
  match l.queue with
  | token :: queue =>
    if l.isWaiting then
      readToken
      return none
    else
      set { l with queue, given := l.given + 1 }
      return some token
  | [] =>
    readToken
    return none

/-- Reading that has come to the barrier fails there, whatever else it has met. -/
def stepsFrom (barrier : Option Barrier) : Nat → Lexer → List Token × Option Problem
  | 0, _ => ([], none)
  | bound + 1, l =>
    match step.run l with
    | .error p => ([], some ((barrier.bind (·.problem? p.index)).getD p))
    | .ok (given, l) =>
      match barrier.bind (·.problem? l.cursor.mark.index), given with
      | some p, _ => ([], some p)
      | none, none => stepsFrom barrier bound l
      | none, some token =>
        if token.lexeme = .streamEnd then ([token], none)
        else
          let (following, problem) := stepsFrom barrier bound l
          (token :: following, problem)

end Lexer

/-- The tokens up to the end of the text or the first problem. A character takes
one step to read and gives rise to at most four tokens. -/
def tokens (t : Text) : List Token × Option Problem :=
  Lexer.stepsFrom (barrier? t) (5 * (t.length + 2)) { cursor := ⟨t, {}⟩ }

end PipeBlocks.Yaml
