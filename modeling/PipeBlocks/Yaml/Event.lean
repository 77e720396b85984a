import PipeBlocks.Yaml.Tokens

/-! The structure of a YAML text as a series of events.

Collections open and close, scalars and aliases stand between, and an absent node
is an empty scalar. `events` reads tokens only as far as each event needs, so an
event comes before any problem that lies behind it. -/
namespace PipeBlocks.Yaml

structure Scalar where
  text : Text
  style : Style
  tag : Option Text := none
deriving DecidableEq, Repr

inductive Event where
  | streamStart
  | streamEnd
  | documentStart
  | documentEnd
  | alias (name : Text)
  | scalar (anchor : Option Text) (s : Scalar)
  | sequenceStart (anchor : Option Text)
  | sequenceEnd
  | mappingStart (anchor : Option Text)
  | mappingEnd
deriving DecidableEq, Repr

/-- What the text goes on with. -/
inductive Expected where
  | stream
  | firstDocument
  | document
  | documentContent
  | documentEnd
  | nothing
  | blockNode
  | firstBlockEntry
  | blockEntry
  | indentlessEntry
  | firstBlockKey
  | blockKey
  | blockValue
  | firstFlowEntry
  | flowEntry
  /-- The key, value and end of a mapping that is written as an entry. -/
  | entryKey
  | entryValue
  | entryEnd
  | firstFlowKey
  | flowKey
  | flowValue
  | absentFlowValue
deriving DecidableEq, Repr

structure EventReader where
  tokens : List Token
  /-- What stops the text after these tokens. -/
  problem : Option Problem
  expected : Expected := .stream
  /-- What comes after the current node, the innermost first. -/
  later : List Expected := []
  /-- Where the open collections started. -/
  openings : List Mark := []
  handles : List (Text × Text) := []

namespace EventReader

abbrev EventM := StateT EventReader (Except Problem)

def peek : EventM Token := do
  let r ← get
  match r.tokens, r.problem with
  | token :: _, _ => return token
  | [], some p => throw p
  | [], none => return ⟨.streamEnd, {}, {}⟩

def skip : EventM Unit := modify fun r => { r with tokens := r.tokens.drop 1 }

def expect (e : Expected) : EventM Unit := modify fun r => { r with expected := e }

def expectLater (e : Expected) : EventM Unit := modify fun r => { r with later := e :: r.later }

/-- Goes on with what comes after the current node. -/
def resume : EventM Unit :=
  modify fun r => { r with expected := r.later.headD .nothing, later := r.later.drop 1 }

/-- Remembers where a collection starts and passes its first token. -/
def enter : EventM Unit := do
  let token ← peek
  modify fun r => { r with openings := token.start :: r.openings }
  skip

/-- Leaves a collection, and passes its last token. -/
def leave (e : Event) (m : Mark) : EventM (Event × Mark) := do
  resume
  modify fun r => { r with openings := r.openings.drop 1 }
  skip
  return (e, m)

/-- A fault inside the innermost open collection. -/
def failInside (activity : Activity) (fault : Fault) (m : Mark) : EventM α := do
  throw (.during activity ((← get).openings.headD {}) fault m)

def emptyScalar (m : Mark) : Event × Mark := (.scalar none ⟨[], .plain, none⟩, m)

/-! ### Directives -/

/-- Adds what a handle stands for. -/
def addHandle (handle stands : Text) (m : Mark) : EventM Unit := do
  if (← get).handles.any (·.1 == handle) then throw (.ofMark .duplicateHandle m)
  modify fun r => { r with handles := r.handles ++ [(handle, stands)] }

/-- Handles that every document knows, unless it gives them another meaning. -/
def defaultHandles : List (Text × Text) :=
  [(['!'], ['!']), (['!', '!'], "tag:yaml.org,2002:".toList)]

/-- Reads directives; `versioned` tells whether a version has been given. -/
def readDirectives : Nat → (versioned : Bool) → EventM Unit
  | 0, _ => pure ()
  | bound + 1, versioned => do
    let token ← peek
    match token.lexeme with
    | .versionDirective major minor =>
      if versioned then throw (.ofMark .duplicateVersion token.start)
      if major ≠ 1 || (minor ≠ 1 && minor ≠ 2) then throw (.ofMark .unsupportedVersion token.start)
      skip
      readDirectives bound true
    | .tagDirective handle stands =>
      addHandle handle stands token.start
      skip
      readDirectives bound versioned
    | _ =>
      modify fun r =>
        { r with handles := r.handles ++ defaultHandles.filter fun d => !r.handles.any (·.1 == d.1) }

def readAllDirectives : EventM Unit := do
  readDirectives ((← get).tokens.length + 1) false

/-! ### Nodes -/

/-- What a tag stands for in full; a tag without a handle is written in full. -/
def resolveTag (name : TagName) (nodeStart tagStart : Mark) : EventM Text := do
  if name.handle = [] then return name.suffix
  match (← get).handles.find? (·.1 == name.handle) with
  | some (_, stands) => return stands ++ name.suffix
  | none => throw (.during .node nodeStart .undefinedHandle tagStart)

structure Properties where
  anchor : Option Text := none
  tag : Option (TagName × Mark) := none

/-- Reads an anchor and a tag, in either order. -/
def readProperties : EventM Properties := do
  let first ← peek
  match first.lexeme with
  | .anchor name =>
    skip
    let second ← peek
    match second.lexeme with
    | .tag t =>
      skip
      return ⟨some name, some (t, second.start)⟩
    | _ => return ⟨some name, none⟩
  | .tag t =>
    skip
    let second ← peek
    match second.lexeme with
    | .anchor name =>
      skip
      return ⟨some name, some (t, first.start)⟩
    | _ => return ⟨none, some (t, first.start)⟩
  | _ => return {}

/-- Starts a collection, whose entries are read next. -/
def openCollection (e : Expected) (event : Event) (m : Mark) : EventM (Event × Mark) := do
  expect e
  return (event, m)

/-- Reads a node. Only after a mapping key may a sequence stand unindented. -/
def readNode (block indentless : Bool) : EventM (Event × Mark) := do
  let start := (← peek).start
  match (← peek).lexeme with
  | .alias name =>
    resume
    skip
    return (.alias name, start)
  | _ =>
    let p ← readProperties
    let token ← peek
    let tag ← p.tag.mapM fun (name, m) => resolveTag name start m
    match token.lexeme with
    | .blockEntry =>
      if indentless then openCollection .indentlessEntry (.sequenceStart p.anchor) start
      else absent p.anchor tag start token.start
    | .scalar text style =>
      resume
      skip
      -- the tag `!` alone says nothing
      return (.scalar p.anchor ⟨text, style, if tag = some ['!'] then none else tag⟩, start)
    | .flowSequenceStart => openCollection .firstFlowEntry (.sequenceStart p.anchor) start
    | .flowMappingStart => openCollection .firstFlowKey (.mappingStart p.anchor) start
    | .blockSequenceStart =>
      if block then openCollection .firstBlockEntry (.sequenceStart p.anchor) start
      else absent p.anchor tag start token.start
    | .blockMappingStart =>
      if block then openCollection .firstBlockKey (.mappingStart p.anchor) start
      else absent p.anchor tag start token.start
    | _ => absent p.anchor tag start token.start
where
  /-- No content: an empty scalar if there is an anchor or a tag. -/
  absent (anchor tag : Option Text) (start m : Mark) : EventM (Event × Mark) := do
    if anchor.isSome || tag.isSome then
      resume
      return (.scalar anchor ⟨[], .plain, tag⟩, start)
    else throw (.during (if block then .blockNode else .flowNode) start .missingContent m)

/-- Reads a node unless a token of `ends` follows; then the node is absent, at `m`. -/
def readNodeUnless (ends : List Lexeme) (block indentless : Bool) (next : Expected) (m : Mark) :
    EventM (Event × Mark) := do
  if ends.contains (← peek).lexeme then
    expect next
    return emptyScalar m
  else
    expectLater next
    readNode block indentless

/-! ### Collections -/

def readBlockEntry : EventM (Event × Mark) := do
  let token ← peek
  match token.lexeme with
  | .blockEntry =>
    skip
    readNodeUnless [.blockEntry, .blockEnd] true false .blockEntry token.stop
  | .blockEnd => leave .sequenceEnd token.start
  | _ => failInside .blockCollection .missingEntry token.start

def readIndentlessEntry : EventM (Event × Mark) := do
  let token ← peek
  match token.lexeme with
  | .blockEntry =>
    skip
    readNodeUnless [.blockEntry, .key, .value, .blockEnd] true false .indentlessEntry token.stop
  | _ =>
    resume
    return (.sequenceEnd, token.start)

def readBlockKey : EventM (Event × Mark) := do
  let token ← peek
  match token.lexeme with
  | .key =>
    skip
    readNodeUnless [.key, .value, .blockEnd] true true .blockValue token.stop
  | .blockEnd => leave .mappingEnd token.start
  | _ => failInside .blockMapping .missingKey token.start

def readBlockValue : EventM (Event × Mark) := do
  let token ← peek
  match token.lexeme with
  | .value =>
    skip
    readNodeUnless [.key, .value, .blockEnd] true true .blockKey token.stop
  | _ =>
    expect .blockKey
    return emptyScalar token.start

/-- Reads what a flow collection goes on with, past the comma that must stand
before all entries but the first; `none` at the end of the collection. -/
def nextInFlow (first : Bool) (ending : Lexeme) (activity : Activity) (fault : Fault) :
    EventM (Option Token) := do
  let token ← peek
  if token.lexeme = ending then return none
  if !first then
    if token.lexeme ≠ .flowEntry then failInside activity fault token.start
    skip
  let token ← peek
  return if token.lexeme = ending then none else some token

def readFlowEntry (first : Bool) : EventM (Event × Mark) := do
  match ← nextInFlow first .flowSequenceEnd .flowSequence .missingSequenceEnd with
  | none => leave .sequenceEnd (← peek).start
  | some token =>
    if token.lexeme = .key then
      skip
      expect .entryKey
      return (.mappingStart none, token.start)
    else
      expectLater .flowEntry
      readNode false false

def readEntryKey : EventM (Event × Mark) := do
  let token ← peek
  if [.value, .flowEntry, .flowSequenceEnd].contains token.lexeme then
    -- an absent key takes the token after it with it
    skip
    expect .entryValue
    return emptyScalar token.stop
  else
    expectLater .entryValue
    readNode false false

/-- Reads the value after a colon, if there is one. -/
def readFlowValue (ending : Lexeme) (next : Expected) : EventM (Event × Mark) := do
  let token ← peek
  if token.lexeme = .value then
    skip
    readNodeUnless [.flowEntry, ending] false false next (← peek).start
  else
    expect next
    return emptyScalar token.start

def readEntryEnd : EventM (Event × Mark) := do
  expect .flowEntry
  return (.mappingEnd, (← peek).start)

def readFlowKey (first : Bool) : EventM (Event × Mark) := do
  match ← nextInFlow first .flowMappingEnd .flowMapping .missingMappingEnd with
  | none => leave .mappingEnd (← peek).start
  | some token =>
    if token.lexeme = .key then
      skip
      readNodeUnless [.value, .flowEntry, .flowMappingEnd] false false .flowValue (← peek).start
    else
      expectLater .absentFlowValue
      readNode false false

/-! ### Documents -/

def skipDocumentEnds : Nat → EventM Unit
  | 0 => pure ()
  | bound + 1 => do
    if (← peek).lexeme = .documentEnd then
      skip
      skipDocumentEnds bound

/-- Reads the start of a document; only the first may go without a mark. -/
def readDocumentStart (first : Bool) : EventM (Event × Mark) := do
  if !first then skipDocumentEnds ((← get).tokens.length + 1)
  let token ← peek
  let bare := match token.lexeme with
    | .versionDirective .. | .tagDirective .. | .documentStart | .streamEnd => false
    | _ => true
  if token.lexeme = .streamEnd then
    expect .nothing
    skip
    return (.streamEnd, token.start)
  else if first && bare then
    readAllDirectives
    expectLater .documentEnd
    expect .blockNode
    return (.documentStart, token.start)
  else
    readAllDirectives
    let mark ← peek
    if mark.lexeme ≠ .documentStart then throw (.ofMark .missingDocumentStart mark.start)
    skip
    expectLater .documentEnd
    expect .documentContent
    return (.documentStart, token.start)

def readDocumentContent : EventM (Event × Mark) := do
  let token ← peek
  match token.lexeme with
  | .versionDirective .. | .tagDirective .. | .documentStart | .documentEnd | .streamEnd =>
    resume
    return emptyScalar token.start
  | _ => readNode true false

def readDocumentEnd : EventM (Event × Mark) := do
  let token ← peek
  if token.lexeme = .documentEnd then skip
  modify fun r => { r with handles := [] }
  expect .document
  return (.documentEnd, token.start)

/-- Reads the next event, and where it starts. -/
def read : EventM (Event × Mark) := do
  match (← get).expected with
  | .stream =>
    let token ← peek
    skip
    expect .firstDocument
    return (.streamStart, token.start)
  | .firstDocument => readDocumentStart true
  | .document => readDocumentStart false
  | .documentContent => readDocumentContent
  | .documentEnd => readDocumentEnd
  | .nothing => return (.streamEnd, {})
  | .blockNode => readNode true false
  | .firstBlockEntry => enter; readBlockEntry
  | .blockEntry => readBlockEntry
  | .indentlessEntry => readIndentlessEntry
  | .firstBlockKey => enter; readBlockKey
  | .blockKey => readBlockKey
  | .blockValue => readBlockValue
  | .firstFlowEntry => enter; readFlowEntry true
  | .flowEntry => readFlowEntry false
  | .entryKey => readEntryKey
  | .entryValue => readFlowValue .flowSequenceEnd .entryEnd
  | .entryEnd => readEntryEnd
  | .firstFlowKey => enter; readFlowKey true
  | .flowKey => readFlowKey false
  | .flowValue => readFlowValue .flowMappingEnd .flowKey
  | .absentFlowValue =>
    expect .flowKey
    return emptyScalar (← peek).start

/-- The events up to the end of the stream or the first problem. -/
def eventsFrom : Nat → EventReader → List (Event × Mark) × Option Problem
  | 0, _ => ([], none)
  | bound + 1, r =>
    match read.run r with
    | .error p => ([], some p)
    | .ok ((.streamEnd, m), _) => ([(.streamEnd, m)], none)
    | .ok (event, r) =>
      let (following, problem) := eventsFrom bound r
      (event :: following, problem)

end EventReader

/-- The events of a text up to its first problem. A token makes at most three events. -/
def events (t : Text) : List (Event × Mark) × Option Problem :=
  let (tokens, problem) := tokens t
  EventReader.eventsFrom (3 * tokens.length + 8) { tokens, problem }

end PipeBlocks.Yaml
