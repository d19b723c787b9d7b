import RingDeque.Cursor.OneWay
import RingDeque.Cursor.TwoWay
import RingDeque.Splitter
import RingDeque.Text.Quoted

/-!
# Texts of deques, cursors and errors

A deque is shown as the list of its elements, whatever its layout. Cursors and splitters are shown
with the slots that they remember.
-/

namespace RingDeque

instance : Inspect Int64 where
  inspect n := .atom (toString n.toInt)

instance : Display Int64 where
  display n := toString n.toInt

instance : Inspect String where
  inspect text := .atom (Quoted.quote text)

instance : Display String where
  display text := text

instance {α : Type u} [Inspect α] : Inspect (Deque α) where
  inspect d := .list (d.toList.map inspect)

instance {α : Type u} [Display α] : Display (Deque α) where
  display d := "[" ++ ", ".intercalate (d.toList.map display) ++ "]"

instance : Inspect Direction where
  inspect
    | .forward => .atom "Forward"
    | .backward => .atom "Backward"

instance : Inspect OneWayCursor where
  inspect c := .record "DequeCursor" [
    .field "direction" (inspect c.direction),
    .field "cursor" (.nat c.position),
    .field "remaining" (.nat c.remaining),
    .field "last" (.option (c.last.map .nat))] false

instance : Inspect TwoWayCursor where
  inspect c := .record "ListCursor" [
    .field "cursor" (.nat c.position),
    .field "start" (.nat c.start),
    .field "end" (.nat c.stop),
    .field "slot_count" (.nat c.slotCount),
    .field "last" (.option (c.last.map .nat))] false

instance : Inspect Splitter where
  inspect sp := .record "Spliter" [
    .field "fence" (.option (sp.fence.map .nat)),
    .field "cursor" (.nat sp.position)] true

instance : Inspect Error where
  inspect e :=
    match e with
    | .indexOutOfBounds index length =>
      .record e.name [.field "index" (.nat index), .field "len" (.nat length)] false
    | .nullElement index => .record e.name [.field "index" (.nat index)] false
    | .capacityOverflow requested => .record e.name [.field "requested" (.nat requested)] false
    | _ => .atom e.name

end RingDeque
