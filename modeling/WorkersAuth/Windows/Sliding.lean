import Mathlib.Order.MinMax
import WorkersAuth.Atomic.Sequence

/-! Sliding windows.
A window has an idle end, which use moves on, and an absolute end, which nothing moves. A
window that has ended stays ended, whatever happens to it later.
-/

namespace Windows

open Atomic

variable {τ : Type} [LinearOrder τ]

/-- When something expires if it is not used again, and when it does in any case. -/
structure Window (τ : Type) [LinearOrder τ] where
  idle : τ
  absolute : τ
  idle_le : idle ≤ absolute

/-- The window with an idle end that is cut off at the absolute one. -/
def Window.clamp (idle absolute : τ) : Window τ where
  idle := min idle absolute
  absolute := absolute
  idle_le := min_le_right idle absolute

/-- A cut off window has ended when either end has come. -/
theorem Window.clamp_ended {idle absolute time : τ}
    : (Window.clamp idle absolute).idle ≤ time ↔ idle ≤ time ∨ absolute ≤ time :=
  min_le_iff

/-- What may become of a window at a time: it goes, its idle end comes nearer, or it is used
before it ends.
-/
inductive Slides (time : τ) : Option (Window τ) → Option (Window τ) → Prop
  | gone {window : Option (Window τ)} : Slides time window none
  | nears {window later : Window τ} (idle : later.idle ≤ window.idle)
    (absolute : later.absolute = window.absolute)
    : Slides time (some window) (some later)
  | used {window later : Window τ} (live : time < window.idle)
    (absolute : later.absolute = window.absolute)
    : Slides time (some window) (some later)

/-- If there still is a window, it has ended. -/
def Ended (time : τ) (window : Option (Window τ)) : Prop :=
  ∀ one ∈ window, one.idle ≤ time

instance (time : τ) (window : Option (Window τ)) : Decidable (Ended time window) :=
  inferInstanceAs (Decidable (∀ one ∈ window, one.idle ≤ time))

variable {window later : Option (Window τ)} {time since : τ} {times : List τ}

/-- A window stays as it is. -/
theorem Slides.refl (window : Option (Window τ)) : Slides time window window := by
  cases window with
  | none => exact .gone
  | some one => exact .nears le_rfl rfl

/-- A window that has ended stays ended: what would be a use comes too late. -/
theorem Slides.ended (slides : Slides time window later) (after : since ≤ time)
    (ended : Ended since window)
    : Ended since later := by
  intro one member
  cases slides with
  | gone => contradiction
  | nears idle absolute =>
      cases member
      exact idle.trans (ended _ rfl)
  | used live absolute => exact absurd (live.trans_le (ended _ rfl)) after.not_gt

/-- The same over any number of steps, by induction on them. -/
theorem ended_forever
    (run : Sequence (fun before time after => Slides time before after) window times later)
    (after : ∀ time ∈ times, since ≤ time) (ended : Ended since window)
    : Ended since later :=
  run.keeps (Ended since) (fun time member _ _ slides => slides.ended (after time member)) ended

end Windows
