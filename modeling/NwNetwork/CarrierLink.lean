import NwNetwork.CarrierDriverStored
import NwNetwork.CarrierDriverReceiving

-- Two drivers and the network between them.
namespace NwNetwork.Carrier
open WireReader Serialize PartialRuns

inductive Side where
  | near
  | far
  deriving DecidableEq, Repr

def Side.other : Side → Side
  | .near => .far
  | .far => .near

@[simp] theorem other_other (side : Side) : side.other.other = side := by cases side <;> rfl

@[simp] theorem other_ne (side : Side) : side.other ≠ side := by cases side <;> exact fun same => nomatch same

@[simp] theorem ne_other (side : Side) : side ≠ side.other := Ne.symm (other_ne side)

theorem side_cases (one side : Side) : one = side ∨ one = side.other := by
  cases one <;> cases side <;> simp [Side.other]

abbrev Link := Side → CarrierDriver

-- How the driver of one side is made.
structure Setup where
  now : Nat
  sendCompressed : Bool
  version : BitVec 32
  role : CarrierRole

def Setup.driver (setup : Setup) : CarrierDriver :=
  CarrierDriver.new setup.now setup.sendCompressed setup.version setup.role

def Link.new (setup : Side → Setup) : Link := fun side => (setup side).driver

def Link.set (link : Link) (side : Side) (driver : CarrierDriver) : Link :=
  fun one => if one = side then driver else link one

@[simp] theorem set_same (link : Link) (side : Side) (driver : CarrierDriver) : link.set side driver side = driver := by
  simp [Link.set]

@[simp] theorem set_other (link : Link) (side : Side) (driver : CarrierDriver) :
    link.set side driver side.other = link side.other := by simp [Link.set]

-- Nothing is heard that the other side has not written. Datagrams may be lost,
-- repeated and reordered.
def Link.act (lz4 : Lz4) (link : Link) (action : Side × DriverAction) : Option Link := do
  let driver ← (link action.1).act lz4 action.2
  if driver.heard.all fun data => data ∈ (link action.1.other).written then some (link.set action.1 driver) else none

inductive LinkMove (lz4 : Lz4) : Link → Link → Prop where
  | one (side : Side) (move : Move lz4 (link side) driver)
      (network : ∀ data ∈ driver.heard, data ∈ (link side.other).written) :
      LinkMove lz4 link (link.set side driver)

section Links
variable {lz4 : Lz4} {link after : Link}

theorem set_self (link : Link) (side : Side) : link.set side (link side) = link := by
  funext one
  by_cases same : one = side
  · subst same
    simp
  · simp [Link.set,same]

theorem set_set (link : Link) (side : Side) (first second : CarrierDriver) :
    (link.set side first).set side second = link.set side second := by
  funext one
  by_cases same : one = side <;> simp [Link.set,same]

theorem moves_link (side : Side) (moves : Moves (Move lz4) (link side) driver)
    (network : ∀ data ∈ driver.heard, data ∈ (link side.other).written) :
    Moves (LinkMove lz4) link (link.set side driver) := by
  induction moves with
  | refl => rw [set_self]
  | @tail middle driver _ last ih =>
    have front := ih fun data present => network data ((move_extends last).heard.subset present)
    have step : LinkMove lz4 (link.set side middle) ((link.set side middle).set side driver) :=
      .one side (by simpa using last) (by simpa using network)
    rw [set_set] at step
    exact front.tail step

theorem link_act_moves (ran : link.act lz4 action = some after) : Moves (LinkMove lz4) link after := by
  obtain ⟨driver,acted,rest⟩ := Option.bind_eq_some_iff.mp ran
  split at rest
  · rename_i network
    cases Option.some.inj rest
    exact moves_link action.1 (act_moves acted) (by simpa using network)
  · cases rest

-- The logs only grow, so what is asked of the commands of a run holds all along it.
def Grows (link after : Link) : Prop := ∀ side, Extends (link side) (after side)

theorem linkMove_grows (move : LinkMove lz4 link after) : Grows link after := by
  cases move with
  | one side move network =>
    intro one
    rcases side_cases one side with rfl | rfl
    · simpa using move_extends move
    · simpa using extends_refl _

theorem linkMoves_grow (moves : Moves (LinkMove lz4) link after) : Grows link after := by
  apply moves_relate _ _ linkMove_grows moves
  · exact fun _ side => extends_refl _
  · exact fun first second side => extends_trans (first side) (second side)

-- An invariant that may use a fact about the commands given so far.
theorem linkMoves_keep {asked invariant : Link → Prop}
    (earlier : ∀ {link after}, Grows link after → asked after → asked link)
    (keeps : ∀ {link after}, LinkMove lz4 link after → asked after → invariant link → invariant after)
    (moves : Moves (LinkMove lz4) link after) (holds : invariant link) (final : asked after) : invariant after := by
  induction moves with
  | refl => exact holds
  | tail _ last ih => exact keeps last final (ih (earlier (linkMove_grows last) final))

end Links
end NwNetwork.Carrier
