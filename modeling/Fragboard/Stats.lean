import Fragboard.Cells
import Fragboard.Saturation

/-!
# Combat statistics

A `StatBlock` holds sixteen saturating counters: eight running totals and a
histogram of hits by body region.  Every change adds to single counters, so the
block is described by what each operation does to `StatBlock.get`.
-/

namespace Fragboard

inductive BodyRegion where
  | generic
  | head
  | chest
  | stomach
  | leftArm
  | rightArm
  | leftLeg
  | rightLeg
deriving DecidableEq

namespace BodyRegion

def index : BodyRegion → Fin 8
  | generic => 0
  | head => 1
  | chest => 2
  | stomach => 3
  | leftArm => 4
  | rightArm => 5
  | leftLeg => 6
  | rightLeg => 7

/-- Every region, in the order of the histogram. -/
def all : List BodyRegion :=
  [generic, head, chest, stomach, leftArm, rightArm, leftLeg, rightLeg]

/-- The region that a hit group of the engine's trace stands for. -/
def ofHitGroup? (group : Int32) : Option BodyRegion :=
  all.find? fun region => group.toInt == region.index.val

end BodyRegion

inductive Counter where
  | kills
  | deaths
  | headshots
  | teamkills
  | shots
  | hits
  | damage
  | points
  | body (region : BodyRegion)
deriving DecidableEq

namespace Counter

/-- The position of a counter, in storage and on disk. -/
def index : Counter → Fin 16
  | kills => 0
  | deaths => 1
  | headshots => 2
  | teamkills => 3
  | shots => 4
  | hits => 5
  | damage => 6
  | points => 7
  | body region => ⟨8 + region.index.val, by omega⟩

def all : List Counter :=
  [kills, deaths, headshots, teamkills, shots, hits, damage, points] ++
    BodyRegion.all.map body

def ofIndex (position : Fin 16) : Counter :=
  all[position]

@[simp] theorem ofIndex_index (counter : Counter) :
    ofIndex counter.index = counter := by
  cases counter with
  | body region => cases region <;> rfl
  | _ => rfl

@[simp] theorem index_ofIndex (position : Fin 16) :
    (ofIndex position).index = position := by
  revert position
  decide

theorem index_injective {left right : Counter}
    (same : left.index = right.index) : left = right := by
  have restored := congrArg ofIndex same
  simpa using restored

end Counter

/-- Combat counters of one weapon, opponent, scope or leaderboard row. -/
structure StatBlock where
  words : Cells 16 Int32
deriving DecidableEq

namespace StatBlock

def zero : StatBlock :=
  { words := Cells.fill 0 }

instance : Inhabited StatBlock :=
  ⟨zero⟩

def get (block : StatBlock) (counter : Counter) : Int32 :=
  block.words.get counter.index

def set (block : StatBlock) (counter : Counter) (value : Int32) : StatBlock :=
  { words := block.words.set counter.index value }

def add (block : StatBlock) (counter : Counter) (amount : Int32) : StatBlock :=
  { words := block.words.alter counter.index (satAdd · amount) }

def merge (block other : StatBlock) : StatBlock :=
  { words := Cells.zipWith satAdd block.words other.words }

/-- Counts a trigger pull. -/
def recordShot (block : StatBlock) : StatBlock :=
  block.add .shots 1

/-- Counts a hit, its damage and, when it is known, its region. -/
def recordHit (block : StatBlock) (damage : Int32)
    (region : Option BodyRegion) : StatBlock :=
  let counted := (block.add .hits 1).add .damage damage
  match region with
  | some place => counted.add (.body place) 1
  | none => counted

/-- Counts a kill, apart also as a headshot or as a teamkill. -/
def recordKill (block : StatBlock) (headshot teamkill : Bool) : StatBlock :=
  let counted := block.add .kills 1
  let counted := if headshot then counted.add .headshots 1 else counted
  if teamkill then counted.add .teamkills 1 else counted

def recordDeath (block : StatBlock) : StatBlock :=
  block.add .deaths 1

/-- Credits points, or debits them when they are negative. -/
def award (block : StatBlock) (points : Int32) : StatBlock :=
  block.add .points points

def hasNoShots (block : StatBlock) : Bool :=
  block.get .shots == 0

def isZero (block : StatBlock) : Bool :=
  block == zero

@[simp] theorem get_zero (counter : Counter) : zero.get counter = 0 := by
  simp [zero, get]

theorem get_add (block : StatBlock) (counter other : Counter)
    (amount : Int32) :
    (block.add counter amount).get other =
      if counter = other then satAdd (block.get other) amount
      else block.get other := by
  unfold get add
  rw [Cells.get_alter]
  by_cases same : counter = other
  · simp [same]
  · have apart : counter.index ≠ other.index :=
      fun equal => same (Counter.index_injective equal)
    simp [same, apart]

@[simp] theorem get_merge (block other : StatBlock) (counter : Counter) :
    (block.merge other).get counter =
      satAdd (block.get counter) (other.get counter) := by
  simp [merge, get]

/-- Blocks that agree on every counter are equal. -/
theorem ext_counters {left right : StatBlock}
    (agree : ∀ counter, left.get counter = right.get counter) :
    left = right := by
  cases left with
  | mk leftWords =>
    cases right with
    | mk rightWords =>
      congr 1
      apply Cells.ext_get
      intro position
      simpa [get] using agree (Counter.ofIndex position)

end StatBlock

end Fragboard
