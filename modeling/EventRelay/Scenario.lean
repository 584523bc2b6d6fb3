import EventRelay.Ieee
import EventRelay.Message
import EventRelay.Scenario.Generator

/-!
# Mobility scenarios

Nodes drift through a box at constant speed and heading and come back in at the opposite side. Two
nodes are neighbors while they are within a radius of each other. Each step is told in messages:
where each node is, now and then a label, and its neighbors on each layer.

The remainder of a division of two numbers is a number again, so it is computed exactly: both are
brought to the lesser of their two exponents, and their significands divided.
-/

namespace EventRelay

namespace Remainder

/-- The absolute value of a finite number as a significand and an exponent. -/
def magnitude (x : Float) : Nat × Int :=
  match (Binary64.ofFloat x).value with
  | .finite _ m q _ => (m, q)
  | _ => (0, 0)

/-- The remainder of `x` by `y`, with the sign of `x`; both are finite and `y` is not zero. -/
def truncated (x y : Float) : Float :=
  let (m, q) := magnitude x
  let (n, r) := magnitude y
  let e := min q r
  let rest := (m * Nat.pow 2 (q - e).toNat) % (n * Nat.pow 2 (r - e).toNat)
  let size := (Float.ofNat rest).scaleB e
  if x < 0 then -size else size

/-- The remainder that is not negative. -/
def euclidean (x y : Float) : Float :=
  let r := truncated x y
  if r < 0 then r + y.abs else r

end Remainder

structure ScenarioConfig where
  nodes : Nat := 10
  width : Float := 500
  height : Float := 500
  depth : Float := 20
  radius : Float := 100
  layers : Nat := 1
  labelPercent : Nat := 10

structure Mover where
  x : Float
  y : Float
  z : Float
  speed : Float
  theta : Float
  phi : Float
  deriving Inhabited

structure Scenario where
  config : ScenarioConfig
  movers : List Mover
  generator : Generator

namespace Scenario

def pi : Float := Float.ofBits 0x400921fb54442d18

def minSpeed : Float := 2
def maxSpeed : Float := 10

/-- The addresses count from 0.0.0.1. -/
def nodeAddress (index : Nat) : Address := .v4 (index + 1).toUInt32

def newMover (config : ScenarioConfig) (g : Generator) : Mover × Generator :=
  let (x, g) := g.float
  let (y, g) := g.float
  let (z, g) := g.float
  let (speed, g) := g.float
  let (theta, g) := g.float
  let (phi, g) := g.float
  ({ x := x * config.width
     y := y * config.height
     z := z * config.depth
     speed := minSpeed + speed * (maxSpeed - minSpeed)
     theta := (theta * 2 - 1) * pi
     phi := (phi - 0.5) * pi }, g)

def newMovers (config : ScenarioConfig) : Nat → Generator → List Mover × Generator
  | 0, g => ([], g)
  | n + 1, g =>
    let (m, g) := newMover config g
    let (ms, g) := newMovers config n g
    (m :: ms, g)

def start (config : ScenarioConfig) (seed : UInt64) : Scenario :=
  let (movers, generator) := newMovers config config.nodes (.ofSeed seed)
  { config, movers, generator }

/-- A coordinate brought back into the box; in a flat box it is zero. -/
def wrap (value limit : Float) : Float :=
  if limit <= 0 then 0 else Remainder.euclidean value limit

def Mover.step (config : ScenarioConfig) (m : Mover) : Mover :=
  { m with
    x := wrap (m.x + m.theta.cos * m.speed) config.width
    y := wrap (m.y + m.theta.sin * m.speed) config.height
    z := wrap (m.z + m.phi.sin * m.speed) config.depth }

def step (s : Scenario) : Scenario := { s with movers := s.movers.map (Mover.step s.config) }

def distance (a b : Mover) : Float :=
  let square (d : Float) := d * d
  (square (b.x - a.x) + square (b.y - a.y) + square (b.z - a.z)).sqrt

/-- The nodes, by number, within the radius of node `i`. -/
def neighborsOf (s : Scenario) (i : Nat) (m : Mover) : List Nat :=
  (s.movers.zipIdx.filter fun (other, j) => j != i && distance m other <= s.config.radius).map (·.2)

def neighbors (s : Scenario) (i : Nat) : List Nat :=
  match s.movers[i]? with
  | some m => s.neighborsOf i m
  | none => []

/-- Ten points. -/
def fontSize : Binary32 := ⟨0x41200000⟩

def report (timestamp : Int64) (node : Address) (m : Mover) : Message :=
  .current timestamp (.gps
    { node, lat := .ofFloat m.x, lng := .ofFloat m.y, alt := .ofFloat m.z })

def labelMessage (timestamp : Int64) (node : Address) : Message :=
  .current timestamp (.label
    { node
      text := "Label"
      fontSize
      foreground := .solid 255 255 255
      background := .solid 0 0 255
      expirationMs := 5000
      add := true
      layer := "Labels" })

def linkMessage (timestamp : Int64) (node : Address) (neighbors : List Address) (layer : Nat) :
    Message :=
  .current timestamp (.connectivity
    { node, layer := "ConnectivityMessages_" ++ toString layer, neighbors })

/-- The messages of one node; whether it gets a label is drawn. -/
def messagesOf (s : Scenario) (timestamp : Int64) (i : Nat) (m : Mover) (g : Generator) :
    List Message × Generator :=
  let node := nodeAddress i
  let (chance, g) := g.below 100
  let label := if chance < s.config.labelPercent then [labelMessage timestamp node] else []
  let links := (List.range s.config.layers).map
    (linkMessage timestamp node ((s.neighborsOf i m).map nodeAddress))
  (report timestamp node m :: label ++ links, g)

def messagesFrom (s : Scenario) (timestamp : Int64) :
    List (Mover × Nat) → Generator → List Message × Generator
  | [], g => ([], g)
  | (m, i) :: ms, g =>
    let (front, g) := s.messagesOf timestamp i m g
    let (back, g) := messagesFrom s timestamp ms g
    (front ++ back, g)

/-- The messages that tell the current step. -/
def messages (s : Scenario) (timestamp : Int64) : List Message × Scenario :=
  let (ms, generator) := s.messagesFrom timestamp s.movers.zipIdx s.generator
  (ms, { s with generator })

end Scenario

end EventRelay
