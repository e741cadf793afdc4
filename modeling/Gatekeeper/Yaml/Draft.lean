/-!
# Texts that are being written

A draft is a text with what the next mark has to know of its last line: the column, whether a blank or
a line break comes last, and whether only blanks and marks of indentation stand on it.
-/
namespace Gatekeeper.Yaml

structure Draft where
  text : String := ""
  column : Nat := 0
  /-- Whether a blank or a line break comes last. -/
  afterGap : Bool := true
  /-- Whether a node could start here as well as on a line of its own. -/
  fresh : Bool := true
  deriving DecidableEq, Repr

namespace Draft

/-- Characters at the end, as they are. -/
def write (d : Draft) (s : String) : Draft :=
  { d with text := d.text ++ s, column := d.column + s.length }

/-- Say that the last line has content and ends with it. -/
def settled (d : Draft) : Draft :=
  { d with afterGap := false, fresh := false }

/-- A blank where what follows would touch what comes before. -/
def apart (d : Draft) : Draft :=
  if d.afterGap then d else d.write " "

/-- A mark right behind what comes before. -/
def close (d : Draft) (s : String) : Draft :=
  (d.write s).settled

/-- A mark apart from what comes before. -/
def mark (d : Draft) (s : String) : Draft :=
  d.apart.close s

/-- A mark of indentation, behind which a line may go on as if it started there. -/
def bullet (d : Draft) (s : String) : Draft :=
  { d.mark s with fresh := d.fresh }

def newLine (d : Draft) : Draft :=
  { text := d.text.push '\n' }

/-- Go to a column, on a new line unless this one has nothing but indentation before that column. -/
def startLine (d : Draft) (column : Nat) : Draft :=
  let d := if !d.fresh || column < d.column || (d.column == column && !d.afterGap) then d.newLine else d
  if d.column < column then
    { d.write (String.ofList (List.replicate (column - d.column) ' ')) with afterGap := true }
  else d

/-- A draft only grows. -/
theorem text_write (d : Draft) (s : String) : (d.write s).text = d.text ++ s := rfl

theorem text_close (d : Draft) (s : String) : (d.close s).text = d.text ++ s := rfl

end Draft

end Gatekeeper.Yaml
