import RingDeque.Shared.Session
import RingDeque.Text.Deque

/-!
# Texts of shared deques

A shared deque is shown without waiting for it: with its elements if they can be read at a glance,
and otherwise with a word that says why not.
-/

namespace RingDeque

instance {α : Type} [Inspect α] : Inspect (Session.Glance α) where
  inspect glance := .record "SharedDeque" [.field "deque" (
    match glance with
    | .deque d => inspect d
    | .borrowed => .atom "<borrowed>"
    | .locked => .atom "<locked>")] false

end RingDeque
