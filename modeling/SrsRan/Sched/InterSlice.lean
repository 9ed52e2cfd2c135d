import SrsRan.Lib.Run
import SrsRan.Lib.PrioQueue
import SrsRan.Support.Window
import SrsRan.Support.Interval
import SrsRan.Support.SlotArithmetic

/-!
# The inter-slice scheduler

In every slot `inter_slice_scheduler` queues the slices that can be scheduled and hands them out by priority.  A slice with a
minimum of RBs is offered twice: up to its minimum and then, with a lower priority, up to its maximum.

The choice among entries of the same priority is arbitrary (`TieBreak`), and so are the update and the rounding of the
average numbers of RBs.  The sets of UEs are reduced to whether they are empty.
-/

namespace SrsRan.Sched

open Support Lib.Run Lib.PrioQueue

structure SlicePolicy where
  minPrb : ℕ
  maxPrb : ℕ
  priority : ℕ
deriving DecidableEq

def SlicePolicy.maxPriority : ℕ := 255

structure SliceBudget where
  minPrb : ℕ
  maxPrb : ℕ
  priority : ℕ
deriving DecidableEq

/-- What the scheduler reads of `cell_configuration`. -/
structure SliceCell where
  cellMaxRbs : ℕ
  ntnCsKoffset : ℕ
  k2 : List ℕ
  /-- indices into `pusch_td_alloc_list`, circularly indexed by slot -/
  validPuschTdListPerSlot : List (List ℕ)
  ringSize : ℕ
  /-- `nof_slots_per_hyper_system_frame` -/
  nofSlots : ℕ
  isDlEnabled : ℕ → Bool
  /-- The update of a running average, and its conversion to an integer. -/
  avgUpdate : ℕ → ℕ → ℕ
  avgRound : ℕ → ℕ
  ringSize_pos : 0 < ringSize
  ringSize_dvd : ringSize ∣ nofSlots
  k2_lt : ∀ k ∈ k2, k < ringSize

namespace SliceCell

variable (cell : SliceCell)

def plus (slot n : ℕ) : ℕ := (slot + n) % cell.nofSlots

def minK2 : ℕ := cell.k2.min?.getD 0

def puschTd (slot : ℕ) : List (ℕ × ℕ) :=
  (cell.validPuschTdListPerSlot.getD (slot % cell.validPuschTdListPerSlot.length) []).filterMap fun td =>
    (cell.k2[td]?).map fun k => (td, k + cell.ntnCsKoffset)

end SliceCell

structure RanSlice where
  cfg : SlicePolicy
  active : Bool
  pdschRbCount : ℕ
  puschRbCountPerSlot : ℕ → ℕ
  lastPdschAllocSlot : Option ℕ
  lastPuschAllocSlot : Option ℕ
  avgPdschRbsPerSlot : ℕ
  avgPuschRbsPerSlot : ℕ

namespace RanSlice

variable (cell : SliceCell)

def maxSlotsSinceLastPxsch : ℕ := 256

variable (r : RanSlice)

def rbCount (dl : Bool) (slot : ℕ) : ℕ :=
  if dl then r.pdschRbCount else r.puschRbCountPerSlot (slot % cell.ringSize)

def storeGrant (dl : Bool) (crbs slot : ℕ) : RanSlice :=
  if dl then { r with pdschRbCount := r.pdschRbCount + crbs, lastPdschAllocSlot := some slot }
  else
    { r with
      puschRbCountPerSlot := Function.update r.puschRbCountPerSlot (slot % cell.ringSize)
        (r.puschRbCountPerSlot (slot % cell.ringSize) + crbs)
      lastPuschAllocSlot := some slot }

def nofSlotsSinceLast (dl : Bool) (slot : ℕ) : ℕ :=
  match if dl then r.lastPdschAllocSlot else r.lastPuschAllocSlot with
  | some last => if 0 ≤ slotSub cell.nofSlots slot last then (slotSub cell.nofSlots slot last).toNat else 0
  | none => maxSlotsSinceLastPxsch

def clearLast (slot : ℕ) (last : Option ℕ) : Option ℕ :=
  last.filter fun l => ¬ 0 < slotSub cell.nofSlots slot (cell.plus l (maxSlotsSinceLastPxsch + cell.ntnCsKoffset))

def slotIndication (slot : ℕ) : RanSlice :=
  let toClear := cell.plus (cell.plus slot cell.minK2) (cell.nofSlots - 1) % cell.ringSize
  { r with
    avgPdschRbsPerSlot := cell.avgUpdate r.avgPdschRbsPerSlot r.pdschRbCount
    pdschRbCount := 0
    avgPuschRbsPerSlot := cell.avgUpdate r.avgPuschRbsPerSlot (r.puschRbCountPerSlot toClear)
    puschRbCountPerSlot := Function.update r.puschRbCountPerSlot toClear 0
    lastPdschAllocSlot := clearLast cell slot r.lastPdschAllocSlot
    lastPuschAllocSlot := clearLast cell slot r.lastPuschAllocSlot }

/-- `get_prio`, with its terms packed into one number; 0 is to skip the slice. -/
def getPrio (dl : Bool) (pdcchSlot pxschSlot : ℕ) (sliceResched : Bool) : ℕ :=
  let rbCount := r.rbCount cell dl pxschSlot
  if !r.active ∨ rbCount ≥ r.cfg.maxPrb then 0
  else
    let dist := slotSub cell.nofSlots pxschSlot pdcchSlot
    let slotDist := 127 - if dist < 0 then 127 else min dist.toNat 127
    let minRbPrio := if !sliceResched ∧ 0 < r.cfg.minPrb ∧ rbCount < r.cfg.minPrb then 1 else 0
    let prio := 2 * slotDist + minRbPrio
    let prio := 256 * prio + min r.cfg.priority 255
    let prio := 256 * prio + min (r.nofSlotsSinceLast cell dl pxschSlot) 255
    let rbsPerSlot := cell.avgRound (if dl then r.avgPdschRbsPerSlot else r.avgPuschRbsPerSlot)
    let prio := 128 * prio + (127 - min rbsPerSlot 127)
    2 * prio + 1

end RanSlice

structure SliceContext where
  id : ℕ
  prio : ℕ
  rbLims : Interval
  slotTx : ℕ
deriving DecidableEq

/-- `ran_slice_candidate`. -/
structure RanSliceCandidate where
  dl : Bool
  id : ℕ
  slotTx : ℕ
  maxRbs : ℕ
deriving DecidableEq

/-- `inter_slice_scheduler`; the place of a slice in the list is its id. -/
structure InterSlice where
  currentSlot : Option ℕ
  slices : List RanSlice
  dlPrioQueue : List SliceContext
  ulPrioQueue : List SliceContext

namespace InterSlice

variable (cell : SliceCell)

/-- The budgets that EdgeRIC has sent replace the limits of the slices. -/
def applyBudgets (budgets : ℕ → Option SliceBudget) (slices : List RanSlice) : List RanSlice :=
  slices.mapIdx fun id r =>
    match budgets id with
    | none => r
    | some b =>
      let minPrb := min b.minPrb cell.cellMaxRbs
      { r with cfg := { minPrb := minPrb
                        maxPrb := min (max b.maxPrb minPrb) cell.cellMaxRbs
                        priority := min b.priority SlicePolicy.maxPriority } }

def advance (current slot : ℕ) (slices : List RanSlice) : List RanSlice :=
  (List.range ((slot + cell.nofSlots - current) % cell.nofSlots)).foldl
    (fun rs i => rs.map (·.slotIndication cell (cell.plus current (i + 1)))) slices

/-- The entry of a slice in the queue, if it has RBs left. -/
def context? (dl : Bool) (pdcchSlot pxschSlot id : ℕ) (r : RanSlice) : Option SliceContext :=
  let count := r.rbCount cell dl pxschSlot
  if h : count < r.cfg.maxPrb then
    let lims : Interval :=
      if h' : count ≤ r.cfg.minPrb ∧ 0 < r.cfg.minPrb then ⟨count, r.cfg.minPrb, h'.1⟩
      else ⟨count, r.cfg.maxPrb, Nat.le_of_lt h⟩
    let prio := r.getPrio cell dl pdcchSlot pxschSlot false
    if prio = 0 then none else some { id := id, prio := prio, rbLims := lims, slotTx := pxschSlot }
  else none

/-- `slot_indication`, with whether the PDSCH or the CRBs of `td` are excluded. -/
def slotIndication (budgets : ℕ → Option SliceBudget) (pdschEnabled : Bool) (full : ℕ → Bool) (slotTx : ℕ)
    (s : InterSlice) : InterSlice :=
  let current := s.currentSlot.getD (cell.plus slotTx (cell.nofSlots - 1))
  let slices := advance cell current slotTx (applyBudgets cell budgets s.slices)
  if cell.isDlEnabled slotTx then
    { currentSlot := some slotTx
      slices := slices
      dlPrioQueue :=
        if pdschEnabled then slices.zipIdx.filterMap fun x => context? cell true slotTx slotTx x.2 x.1 else []
      ulPrioQueue :=
        slices.zipIdx.flatMap fun x =>
          ((cell.puschTd slotTx).filter fun td => !full td.1).filterMap fun td =>
            context? cell false slotTx (cell.plus slotTx td.2) x.2 x.1 }
  else { currentSlot := some slotTx, slices := slices, dlPrioQueue := [], ulPrioQueue := [] }

def queue (s : InterSlice) (dl : Bool) : List SliceContext := if dl then s.dlPrioQueue else s.ulPrioQueue

def setQueue (s : InterSlice) (dl : Bool) (q : List SliceContext) : InterSlice :=
  if dl then { s with dlPrioQueue := q } else { s with ulPrioQueue := q }

def push (q : List SliceContext) (x : SliceContext) : List SliceContext := if x.prio = 0 then q else q ++ [x]

/-- The candidate for a slice, by default up to its maximum. -/
def candidate (dl : Bool) (r : RanSlice) (id slotTx maxRbs : ℕ) : RanSliceCandidate :=
  { dl := dl, id := id, slotTx := slotTx, maxRbs := if maxRbs = 0 then r.cfg.maxPrb else maxRbs }

/-- What is done with the top of the queue, which may have to go back with its upper limit. -/
def offer (tb : TieBreak SliceContext.prio) (dl : Bool) (s : InterSlice) (r : RanSlice) (top : SliceContext) :
    Except Abort (InterSlice × Option RanSliceCandidate) :=
  let rbCount := r.rbCount cell dl top.slotTx
  let stop := top.rbLims.stop
  if 0 < r.cfg.minPrb ∧ r.cfg.minPrb ≠ r.cfg.maxPrb ∧ r.cfg.minPrb ≤ stop ∧ stop ≠ r.cfg.maxPrb then
    let prio := r.getPrio cell dl (s.currentSlot.getD 0) top.slotTx true
    let minRbs := if 0 < rbCount then rbCount else r.cfg.minPrb
    match Interval.make? minRbs r.cfg.maxPrb with
    | none => .error (.assertion "Invalid interval")
    | some lims =>
      let q := push (s.queue dl) { id := top.id, prio := prio, rbLims := lims, slotTx := top.slotTx }
      match tb.top q with
      | none => .error (.assertion "top of an empty queue")
      | some x =>
        if x.id = top.id ∧ top.slotTx = x.slotTx then
          .ok (s.setQueue dl (q.erase x), some (candidate dl r top.id top.slotTx (max stop x.rbLims.stop)))
        else .ok (s.setQueue dl q, some (candidate dl r top.id top.slotTx stop))
  else .ok (s, some (candidate dl r top.id top.slotTx stop))

/-- The loop of `get_next_candidate`; the length of the queue bounds the iterations. -/
def getNextCandidateLoop (tb : TieBreak SliceContext.prio) (dl : Bool) :
    ℕ → InterSlice → Except Abort (InterSlice × Option RanSliceCandidate)
  | 0, s => .ok (s, none)
  | n + 1, s =>
    match tb.top (s.queue dl) with
    | none => .ok (s, none)
    | some top =>
      match s.slices[top.id]? with
      | none => .error (.assertion "slice out of range")
      | some r =>
        let s := s.setQueue dl ((s.queue dl).erase top)
        if top.rbLims.contains (r.rbCount cell dl top.slotTx) then offer cell tb dl s r top
        else getNextCandidateLoop tb dl n s

def getNextCandidate (tb : TieBreak SliceContext.prio) (dl : Bool) (s : InterSlice) :
    Except Abort (InterSlice × Option RanSliceCandidate) :=
  getNextCandidateLoop cell tb dl (s.queue dl).length s

def rbCount (s : InterSlice) (dl : Bool) (id slot : ℕ) : ℕ :=
  match s.slices[id]? with
  | some r => r.rbCount cell dl slot
  | none => 0

/-- `remaining_rbs`. -/
def remainingRbs (s : InterSlice) (c : RanSliceCandidate) : ℕ := c.maxRbs - s.rbCount cell c.dl c.id c.slotTx

def storeGrant (s : InterSlice) (c : RanSliceCandidate) (nofRbs : ℕ) : InterSlice :=
  { s with slices := s.slices.modify c.id fun r => r.storeGrant cell c.dl nofRbs c.slotTx }

end InterSlice

/-- The scheduler, the candidates returned, and where it has returned `nullopt`. -/
structure SliceRun where
  sched : InterSlice
  current : Option RanSliceCandidate
  returned : List (RanSliceCandidate × ℕ)
  ended : List Bool

/-- What the intra-slice scheduler does. -/
inductive SliceAction where
  | next (dl : Bool) (tb : TieBreak SliceContext.prio)
  | grant (nofRbs : ℕ)

namespace SliceRun

variable (cell : SliceCell)

def start (s : InterSlice) : SliceRun := { sched := s, current := none, returned := [], ended := [] }

def step (r : SliceRun) : SliceAction → Except Abort SliceRun
  | .next dl tb => do
    let (s, c) ← r.sched.getNextCandidate cell tb dl
    match c with
    | some c => .ok { r with sched := s, current := some c, returned := r.returned ++ [(c, s.remainingRbs cell c)] }
    | none => .ok { r with sched := s, current := none, ended := dl :: r.ended }
  | .grant nofRbs =>
    match r.current with
    | some c => .ok { r with sched := r.sched.storeGrant cell c nofRbs }
    | none => .error (.assertion "no candidate")

/-- A grant is within what is left of the candidate. -/
def Within (r : SliceRun) : SliceAction → Prop
  | .next _ _ => True
  | .grant nofRbs => ∀ c ∈ r.current, nofRbs ≤ r.sched.remainingRbs cell c

end SliceRun

end SrsRan.Sched
