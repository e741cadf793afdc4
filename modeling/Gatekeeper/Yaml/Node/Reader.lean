import Gatekeeper.Yaml.Node.Basic
import Gatekeeper.Yaml.Token.Lexer

/-!
# Reading nodes

The one document of a YAML text. Nodes are read from tokens by descent and numbered in the order in
which they begin. An anchor names the node behind it, and an alias stands for the node of that name,
also within that node.
-/
namespace Gatekeeper.Yaml

structure Composer where
  lexer : Lexer
  /-- The nodes that have begun. -/
  graph : Graph := #[]
  /-- How many collections are open. -/
  depth : Nat := 0
  /-- The numbers of nodes by their anchors. -/
  anchors : List (String × Nat) := []
  /-- What the handles of tags stand for. -/
  handles : List (String × String) := [("!", "!"), ("!!", standardTags)]

/-- A reading of tokens that may fail. -/
abbrev Compose := StateT Composer (Except Error)

namespace Compose

/-- The next token, which stays the next one. -/
def peek : Compose Token := do
  let c ← get
  let (t, lexer) ← c.lexer.peek
  set { c with lexer }
  return t

/-- Leave the next token behind. -/
def drop : Compose Unit :=
  modify fun c => { c with lexer := c.lexer.drop }

/-- An anchor must be new. -/
def checkAnchor (anchor? : Option String) : Compose Unit := do
  match anchor? with
  | none => pure ()
  | some name => if ((← get).anchors.lookup name).isSome then throw .reference

/-- A new node, known by its anchor from now on. -/
def add (anchor? : Option String) (node : Node) : Compose Nat := do
  let c ← get
  let number := c.graph.size
  let anchors := (anchor?.map fun name => (name, number)).toList ++ c.anchors
  set { c with graph := c.graph.push node, anchors }
  return number

/-- How many collections may be open at once. -/
def depthLimit : Nat := 488

/-- A new collection, of which the content is read once it is known. -/
def collection (anchor? : Option String) (kind : Kind) (content : Compose Content) : Compose Nat := do
  let number ← add anchor? ⟨kind, .sequence []⟩
  if depthLimit ≤ (← get).depth then throw .tooDeep
  modify fun c => { c with depth := c.depth + 1 }
  let content ← content
  modify fun c => { c with graph := c.graph.setContent number content, depth := c.depth - 1 }
  return number

/-- The node of an alias. -/
def dereference (name : String) : Compose Nat := do
  match (← get).anchors.lookup name with
  | some number => return number
  | none => throw .reference

/-- The name that the parts of a tag make. -/
def tagName (handle : Option String) (suffix : String) : Compose String := do
  match handle with
  | none => return suffix
  | some handle =>
    match (← get).handles.lookup handle with
    | some start => return start ++ suffix
    | none => throw .arrangement

def anchor? : Compose (Option String) := do
  match ← peek with
  | .anchor name =>
    drop
    return some name
  | _ => return none

def tag? : Compose (Option (Option String × String)) := do
  match ← peek with
  | .tag handle suffix =>
    drop
    return some (handle, suffix)
  | _ => return none

/-- The anchor and the tag in front of a node, in either order. -/
def properties : Compose (Option String × Option String) := do
  let (anchor, tag) ←
    match ← anchor? with
    | some name => do pure (some name, ← tag?)
    | none =>
      match ← tag? with
      | none => pure (none, none)
      | some tag => do pure (← anchor?, some tag)
  match tag with
  | none => return (anchor, none)
  | some (handle, suffix) => return (anchor, some (← tagName handle suffix))

/-- The kind of a collection, which its tag can change. -/
def collectionKind (kind : Kind) : Option String → Kind
  | none => kind
  | some name => if name == "!" then kind else .ofTag name

/-- The kind of a scalar: what its tag says, else a text unless it is plain. -/
def scalarKind (plain : Bool) (text : List Char) : Option String → Kind
  | none => if plain then .ofText text else .text
  | some name => if name == "!" then .ofText text else .ofTag name

/-- The scalar that stands where nothing is written. -/
def nothing : Compose Nat :=
  add none ⟨.null, .scalar []⟩

mutual

/-- A node. Within a block it may be a block collection, and behind a key also a list that is not
indented. -/
def node (fuel : Nat) (block loose : Bool) : Compose Nat :=
  match fuel with
  | 0 => throw .arrangement
  | fuel + 1 => do
    match ← peek with
    | .alias name =>
      drop
      dereference name
    | _ =>
      let (anchor, tag) ← properties
      match ← peek with
      | .blockEntry =>
        if loose then
          checkAnchor anchor
          collection anchor (collectionKind .list tag) (.sequence <$> looseItems fuel)
        else bare anchor tag
      | .scalar text plain =>
        drop
        checkAnchor anchor
        add anchor ⟨scalarKind plain text tag, .scalar text⟩
      | .flowSequenceStart =>
        checkAnchor anchor
        drop
        collection anchor (collectionKind .list tag) (.sequence <$> flowItems fuel true)
      | .flowMappingStart =>
        checkAnchor anchor
        drop
        collection anchor (collectionKind .map tag) (.mapping <$> flowEntries fuel true)
      | .blockSequenceStart =>
        if block then
          checkAnchor anchor
          drop
          collection anchor (collectionKind .list tag) (.sequence <$> blockItems fuel)
        else bare anchor tag
      | .blockMappingStart =>
        if block then
          checkAnchor anchor
          drop
          collection anchor (collectionKind .map tag) (.mapping <$> blockEntries fuel)
        else bare anchor tag
      | _ => bare anchor tag

/-- A node that has an anchor or a tag only. -/
def bare (anchor tag : Option String) : Compose Nat := do
  if anchor.isNone && tag.isNone then throw .arrangement
  checkAnchor anchor
  add anchor ⟨scalarKind true [] tag, .scalar []⟩

/-- The items of a block list up to its end. -/
def blockItems (fuel : Nat) : Compose (List Nat) :=
  match fuel with
  | 0 => throw .arrangement
  | fuel + 1 => do
    match ← peek with
    | .blockEntry =>
      drop
      let item ←
        match ← peek with
        | .blockEntry | .blockEnd => nothing
        | _ => node fuel true false
      return item :: (← blockItems fuel)
    | .blockEnd =>
      drop
      return []
    | _ => throw .arrangement

/-- The items of a list that is not indented. -/
def looseItems (fuel : Nat) : Compose (List Nat) :=
  match fuel with
  | 0 => throw .arrangement
  | fuel + 1 => do
    match ← peek with
    | .blockEntry =>
      drop
      let item ←
        match ← peek with
        | .blockEntry | .key | .value | .blockEnd => nothing
        | _ => node fuel true false
      return item :: (← looseItems fuel)
    | _ => return []

/-- What stands behind a mark of a block map. -/
def blockPart (fuel : Nat) : Compose Nat :=
  match fuel with
  | 0 => throw .arrangement
  | fuel + 1 => do
    match ← peek with
    | .key | .value | .blockEnd => nothing
    | _ => node fuel true true

/-- The entries of a block map up to its end. -/
def blockEntries (fuel : Nat) : Compose (List (Nat × Nat)) :=
  match fuel with
  | 0 => throw .arrangement
  | fuel + 1 => do
    match ← peek with
    | .key =>
      drop
      let key ← blockPart fuel
      let value ←
        match ← peek with
        | .value =>
          drop
          blockPart fuel
        | _ => nothing
      return (key, value) :: (← blockEntries fuel)
    | .blockEnd =>
      drop
      return []
    | _ => throw .arrangement

/-- The items of a list in brackets up to its end. -/
def flowItems (fuel : Nat) (first : Bool) : Compose (List Nat) :=
  match fuel with
  | 0 => throw .arrangement
  | fuel + 1 => do
    match ← peek with
    | .flowSequenceEnd =>
      drop
      return []
    | t =>
      if !first then
        if t == .flowEntry then drop else throw .arrangement
      match ← peek with
      | .flowSequenceEnd =>
        drop
        return []
      | .key =>
        drop
        let item ← collection none .map do
          let key ← flowPart fuel .flowSequenceEnd
          let value ←
            match ← peek with
            | .value =>
              drop
              match ← peek with
              | .flowEntry | .flowSequenceEnd => nothing
              | _ => node fuel false false
            | _ => nothing
          return .mapping [(key, value)]
        return item :: (← flowItems fuel false)
      | _ =>
        let item ← node fuel false false
        return item :: (← flowItems fuel false)

/-- The key behind a mark within brackets. -/
def flowPart (fuel : Nat) (closing : Token) : Compose Nat :=
  match fuel with
  | 0 => throw .arrangement
  | fuel + 1 => do
    let t ← peek
    if t == .value || t == .flowEntry || t == closing then nothing
    else node fuel false false

/-- The entries of a map in braces up to its end. -/
def flowEntries (fuel : Nat) (first : Bool) : Compose (List (Nat × Nat)) :=
  match fuel with
  | 0 => throw .arrangement
  | fuel + 1 => do
    match ← peek with
    | .flowMappingEnd =>
      drop
      return []
    | t =>
      if !first then
        if t == .flowEntry then drop else throw .arrangement
      match ← peek with
      | .flowMappingEnd =>
        drop
        return []
      | .key =>
        drop
        let key ← flowPart fuel .flowMappingEnd
        let value ←
          match ← peek with
          | .value =>
            drop
            match ← peek with
            | .flowEntry | .flowMappingEnd => nothing
            | _ => node fuel false false
          | _ => nothing
        return (key, value) :: (← flowEntries fuel false)
      | _ =>
        let key ← node fuel false false
        let value ← nothing
        return (key, value) :: (← flowEntries fuel false)

end

/-- Leave marks of the end of a document behind. -/
def skipDocumentEnds (fuel : Nat) : Compose Unit :=
  match fuel with
  | 0 => pure ()
  | fuel + 1 => do
    if (← peek) == .documentEnd then
      drop
      skipDocumentEnds fuel

/-- The directives in front of a document, and what they set. -/
def directives (fuel : Nat) (versioned : Bool) (own : List (String × String)) :
    Compose (List (String × String)) :=
  match fuel with
  | 0 => return own
  | fuel + 1 => do
    match ← peek with
    | .directive d =>
      drop
      match d with
      | .version major =>
        if versioned || major != 1 then throw .arrangement
        directives fuel true own
      | .handle name start =>
        if (own.lookup name).isSome then throw .arrangement
        directives fuel versioned (own ++ [(name, start)])
      | .other => directives fuel versioned own
    | _ => return own

/-- The start of a document that is marked, if there is a document. -/
def documentStart (fuel : Nat) : Compose Bool := do
  skipDocumentEnds fuel
  if (← peek) == .streamEnd then return false
  let own ← directives fuel false []
  if (← peek) != .documentStart then throw .arrangement
  drop
  modify fun c => { c with handles := own ++ [("!", "!"), ("!!", standardTags)] }
  return true

/-- The content of a document. -/
def content (fuel : Nat) : Compose Nat := do
  match ← peek with
  | .directive _ | .documentStart | .documentEnd | .streamEnd => nothing
  | _ => node fuel true false

/-- The only document, or nothing. -/
def document (fuel : Nat) : Compose (Option Nat) := do
  let found ←
    match ← peek with
    | .directive _ | .documentStart | .streamEnd =>
      if ← documentStart fuel then pure (some (← content fuel)) else pure none
    | _ => pure (some (← node fuel true false))
  if found.isNone then return none
  if (← peek) == .documentEnd then drop
  if ← documentStart fuel then throw .reference
  return found

end Compose

/-- The graph of the only document of a text, with the number of its root if there is a document. -/
def Graph.ofText (text : List Char) (stop? : Option Error) : Except Error (Graph × Option Nat) := do
  let composer : Composer := { lexer := .ofText text stop? }
  let (root?, composer) ← (Compose.document (4 * text.length + 8)).run composer
  return (composer.graph, root?)

end Gatekeeper.Yaml
