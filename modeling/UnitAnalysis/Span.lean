/-!
# Source positions and node identities

Every node of a syntax tree carries a `Node`: the identity under which tables remember facts about
it, and the place in the source that it came from. A place that was never given is the all-default
`Span`; it is known exactly when its line is.
-/

set_option autoImplicit false

namespace UnitAnalysis

/-- A place in the source. Offsets count bytes from 0, and lines and columns count from 1; a line of
0 means that the place is not known. -/
structure Span where
  /-- The source file, or the empty text. -/
  file : String := ""
  /-- The first byte. -/
  start : UInt64 := 0
  /-- The byte after the last one. -/
  stop : UInt64 := 0
  /-- The line of the first byte. -/
  line : UInt64 := 0
  /-- The column of the first byte. -/
  col : UInt64 := 0
  deriving DecidableEq, Repr, Inhabited

namespace Span

/-- Whether the place is known. -/
def isKnown (s : Span) : Bool :=
  decide (0 < s.line)

/-- `file:line:col`, without the file when there is none. -/
def text (s : Span) : String :=
  let place := toString s.line.toNat ++ ":" ++ toString s.col.toNat
  if s.file = "" then place else s.file ++ ":" ++ place

end Span

/-- The identity of a node. -/
structure NodeId where
  /-- The number that stands for the node. -/
  val : UInt64
  deriving DecidableEq, Repr, Inhabited

/-- The identity after this one. -/
def NodeId.next (n : NodeId) : NodeId :=
  ⟨n.val + 1⟩

/-- What every node of a syntax tree has: an identity and a place. -/
structure Node where
  /-- The identity. -/
  id : NodeId
  /-- The place. -/
  span : Span := {}
  deriving DecidableEq, Repr, Inhabited

end UnitAnalysis
