import SrsRan.Nru.DlUserData

/-!
# F1-U discard notification

The CU-UP F1-U bearer collects the PDCP SNs of discarded SDUs in blocks of consecutive SNs and sends them; the DU F1-U bearer
calls `on_discard_sdu` for every SN of every block.

The size of a block is an octet: a discard that continues a block of 255 SNs gives a block of size 0, and all its SNs are
lost.
-/

namespace SrsRan.F1u

open Nru Support List

/-- `nru_dl_message`. -/
structure NruDlMessage where
  tPdu : Bytes := []
  dlUserData : DlUserData := {}

/-! ### CU-UP bearer -/

/-- `f1u_bearer_impl` of the CU-UP. -/
structure CuUpBearer where
  discardBlocks : List PdcpSnDiscardBlock := []
  dlNotifTimerRunning : Bool := false
  stopped : Bool := false

namespace CuUpBearer

variable (b : CuUpBearer)

def fillDiscardBlocks (msg : NruDlMessage) : CuUpBearer × NruDlMessage :=
  if !b.discardBlocks.isEmpty then
    ({ b with discardBlocks := [] }, { msg with dlUserData.discardBlocks := some b.discardBlocks })
  else (b, msg)

/-- The new state and the messages passed to `tx_pdu_notifier`. -/
def flushDiscardBlocks : CuUpBearer × List NruDlMessage :=
  let (b, msg) := b.fillDiscardBlocks {}
  ({ b with dlNotifTimerRunning := false }, if msg.dlUserData.discardBlocks.isSome then [msg] else [])

def handleSdu (sdu : Bytes) (isRetx : Bool) : CuUpBearer × List NruDlMessage :=
  if b.stopped then (b, [])
  else
    let (b, msg) := b.fillDiscardBlocks { tPdu := sdu, dlUserData := { retransmissionFlag := isRetx } }
    ({ b with dlNotifTimerRunning := false }, [msg])

def discardSdu (pdcpSn : ℕ) : CuUpBearer × List NruDlMessage :=
  -- start backoff timer
  let b := { b with dlNotifTimerRunning := true }
  match b.discardBlocks.getLast? with
  | none => ({ b with discardBlocks := [⟨pdcpSn, 1⟩] }, [])
  | some lastBlock =>
    if (lastBlock.pdcpSnStart + lastBlock.blockSize) % 2 ^ 32 = pdcpSn then
      let lastBlock := { lastBlock with blockSize := (lastBlock.blockSize + 1) % 2 ^ 8 }
      ({ b with discardBlocks := b.discardBlocks.dropLast ++ [lastBlock] }, [])
    else
      let b := { b with discardBlocks := b.discardBlocks ++ [⟨pdcpSn, 1⟩] }
      if b.discardBlocks.length = maxNofPdcpSnDiscardBlocks then b.flushDiscardBlocks else (b, [])

def onExpiredDlNotifTimer : CuUpBearer × List NruDlMessage :=
  if b.stopped then (b, []) else b.flushDiscardBlocks

/-- The SN continues a last block whose size is already the largest octet. -/
def continuesFullBlock (pdcpSn : ℕ) : Bool :=
  b.discardBlocks.getLast?.any fun last => last.blockSize = 255 ∧ (last.pdcpSnStart + 255) % 2 ^ 32 = pdcpSn

end CuUpBearer

/-! ### DU bearer -/

/-- What the DU passes on. -/
inductive DuCall
  | onNewSdu (sdu : Bytes) (isRetx : Bool)
  | sendDataDeliveryStatus
  | onDiscardSdu (pdcpSn : ℕ)

/-- `for (pdcp_sn = pdcp_sn_start; pdcp_sn < pdcp_sn_end; pdcp_sn++)` -/
def blockSns (block : PdcpSnDiscardBlock) : List ℕ :=
  let pdcpSnEnd := (block.pdcpSnStart + block.blockSize) % 2 ^ 32
  List.range' block.pdcpSnStart (pdcpSnEnd - block.pdcpSnStart)

variable (msg : NruDlMessage)

/-- `handle_pdu_impl` of the DU bearer: the calls, in order. -/
def handlePduImpl : List DuCall :=
  (if msg.tPdu.isEmpty then [] else [.onNewSdu msg.tPdu msg.dlUserData.retransmissionFlag]) ++
    (if msg.dlUserData.reportPolling then [.sendDataDeliveryStatus] else []) ++
    (msg.dlUserData.discardBlocks.getD []).flatMap fun block => (blockSns block).map .onDiscardSdu

def deliver : List DuCall :=
  match DlUserData.unpack msg.dlUserData.pack with
  | some data => handlePduImpl { msg with dlUserData := data }
  | none => []

/-! ### Both bearers -/

/-- The calls of PDCP and the timer of the CU-UP. -/
inductive Event
  | discardSdu (pdcpSn : ℕ)
  | handleSdu (sdu : Bytes) (isRetx : Bool)
  | dlNotifTimerExpired

/-- The CU-UP bearer, with the discarded SNs, the messages and the calls at the DU. -/
structure System where
  cu : CuUpBearer := {}
  passed : List ℕ := []
  sent : List NruDlMessage := []
  calls : List DuCall := []

namespace System

def snOf : DuCall → Option ℕ
  | .onDiscardSdu pdcpSn => some pdcpSn
  | _ => none

/-- The SNs that the DU has passed to RLC, in order. -/
def discarded (s : System) : List ℕ := s.calls.filterMap snOf

/-- The SNs that wait in the blocks of the CU-UP. -/
def pending (s : System) : List ℕ := s.cu.discardBlocks.flatMap blockSns

/-- The bearer after a call; its messages reach the DU in order. -/
def transmit (s : System) (r : CuUpBearer × List NruDlMessage) : System :=
  { s with cu := r.1, sent := s.sent ++ r.2, calls := s.calls ++ r.2.flatMap deliver }

def step (s : System) : Event → System
  | .discardSdu pdcpSn => { s with passed := s.passed ++ [pdcpSn] }.transmit (s.cu.discardSdu pdcpSn)
  | .handleSdu sdu isRetx => s.transmit (s.cu.handleSdu sdu isRetx)
  | .dlNotifTimerExpired => s.transmit s.cu.onExpiredDlNotifTimer

def run (es : List Event) : System := es.foldl step {}

lemma run_concat (es : List Event) (e : Event) : run (es ++ [e]) = (run es).step e := by
  rw [run, foldl_append]
  rfl

end System

/-! ### What a message delivers -/

/-- The blocks fit into the fields of the message. -/
def BlocksFit (bs : List PdcpSnDiscardBlock) : Prop := ∀ b ∈ bs, b.pdcpSnStart < 2 ^ 24 ∧ b.blockSize < 2 ^ 8

lemma BlocksFit.concat {bs : List PdcpSnDiscardBlock} {x : PdcpSnDiscardBlock} (h : BlocksFit bs)
    (hx : x.pdcpSnStart < 2 ^ 24 ∧ x.blockSize < 2 ^ 8) : BlocksFit (bs ++ [x]) := by
  intro y hy
  rcases mem_append.mp hy with hy | hy
  · exact h y hy
  · rw [mem_singleton.mp hy]
    exact hx

lemma filterMap_deliver (h : msg.dlUserData.Fits) :
    (deliver msg).filterMap System.snOf = msg.dlUserData.blocks.flatMap blockSns := by
  rw [deliver, DlUserData.unpack_pack h]
  have htpdu : (if msg.tPdu.isEmpty then [] else [DuCall.onNewSdu msg.tPdu msg.dlUserData.retransmissionFlag]).filterMap
      System.snOf = [] := by split <;> rfl
  have hpoll : (if msg.dlUserData.reportPolling then [DuCall.sendDataDeliveryStatus] else []).filterMap
      System.snOf = [] := by split <;> rfl
  have hsns (sns : List ℕ) : (sns.map DuCall.onDiscardSdu).filterMap System.snOf = sns := by
    rw [filterMap_map]
    exact filterMap_some
  simp only [handlePduImpl, filterMap_append, htpdu, hpoll, nil_append, filterMap_flatMap, hsns]
  rfl

lemma fits_discardBlocks {bs : List PdcpSnDiscardBlock} (hne : bs ≠ []) (hlen : bs.length ≤ maxNofPdcpSnDiscardBlocks)
    (hfit : BlocksFit bs) (isRetx : Bool) :
    ({ retransmissionFlag := isRetx, discardBlocks := some bs } : DlUserData).Fits where
  nruSn := show 0 < 2 ^ 24 by decide
  dlDiscardPdcpSn := nofun
  nonempty := fun h => hne (Option.some.inj h)
  count := hlen
  blocks := hfit
  dlReportPdcpSn := show 0 < 2 ^ 24 by decide
  report := fun _ => rfl

lemma fits_retransmissionFlag (isRetx : Bool) : ({ retransmissionFlag := isRetx } : DlUserData).Fits where
  nruSn := show 0 < 2 ^ 24 by decide
  dlDiscardPdcpSn := nofun
  nonempty := nofun
  count := Nat.zero_le _
  blocks := nofun
  dlReportPdcpSn := show 0 < 2 ^ 24 by decide
  report := fun _ => rfl

lemma blockSns_eq {start size : ℕ} (hstart : start < 2 ^ 24) (hsize : size < 2 ^ 8) :
    blockSns ⟨start, size⟩ = range' start size := by
  have hend : (start + size) % 2 ^ 32 - start = size := by omega
  simp only [blockSns, hend]

lemma blockSns_one {pdcpSn : ℕ} (hsn : pdcpSn < 2 ^ 24) : blockSns ⟨pdcpSn, 1⟩ = [pdcpSn] := blockSns_eq hsn (by decide)

/-! ### Steps of the CU-UP bearer -/

def accounted (r : CuUpBearer × List NruDlMessage) : List ℕ :=
  (r.2.flatMap deliver).filterMap System.snOf ++ r.1.discardBlocks.flatMap blockSns

namespace CuUpBearer

/-- What all reachable states of the bearer satisfy. -/
structure Inv (b : CuUpBearer) : Prop where
  running : b.stopped = false
  length_lt : b.discardBlocks.length < maxNofPdcpSnDiscardBlocks
  fit : BlocksFit b.discardBlocks
  timer : b.discardBlocks ≠ [] → b.dlNotifTimerRunning = true

/-- No message has more blocks than it has room for. -/
def MessagesBounded (msgs : List NruDlMessage) : Prop :=
  ∀ m ∈ msgs, m.dlUserData.blocks.length ≤ maxNofPdcpSnDiscardBlocks

variable {b : CuUpBearer} {pdcpSn : ℕ}

lemma inv_of_empty (hrunning : b.stopped = false) (hempty : b.discardBlocks = []) : b.Inv where
  running := hrunning
  length_lt := by rw [hempty]; decide
  fit := by rw [hempty]; intro x hx; cases hx
  timer := fun h => absurd hempty h

/-- A message that is sent accounts for its blocks. -/
lemma sent_spec (hrunning : b.stopped = false) (msg : NruDlMessage) (h : msg.dlUserData.Fits) :
    ({ b with discardBlocks := [], dlNotifTimerRunning := false } : CuUpBearer).Inv ∧ MessagesBounded [msg] ∧
      accounted ({ b with discardBlocks := [], dlNotifTimerRunning := false }, [msg]) =
        msg.dlUserData.blocks.flatMap blockSns := by
  refine ⟨inv_of_empty hrunning rfl, fun m hm => ?_, ?_⟩
  · rw [mem_singleton.mp hm]
    exact h.count
  · simp only [accounted, flatMap_cons, flatMap_nil, append_nil, filterMap_deliver msg h]

lemma flushDiscardBlocks_spec (hrunning : b.stopped = false)
    (hlen : b.discardBlocks.length ≤ maxNofPdcpSnDiscardBlocks) (hfit : BlocksFit b.discardBlocks) :
    b.flushDiscardBlocks.1.Inv ∧ MessagesBounded b.flushDiscardBlocks.2 ∧
      accounted b.flushDiscardBlocks = b.discardBlocks.flatMap blockSns := by
  cases hb : b.discardBlocks with
  | nil =>
    have heq : b.flushDiscardBlocks = ({ b with dlNotifTimerRunning := false }, []) := by
      simp [flushDiscardBlocks, fillDiscardBlocks, hb]
    rw [heq]
    refine ⟨inv_of_empty hrunning hb, nofun, ?_⟩
    simp [accounted, hb]
  | cons x xs =>
    have heq : b.flushDiscardBlocks = ({ b with discardBlocks := [], dlNotifTimerRunning := false },
        [{ dlUserData := { discardBlocks := some (x :: xs) } }]) := by
      simp [flushDiscardBlocks, fillDiscardBlocks, hb]
    rw [heq]
    exact sent_spec hrunning _ (fits_discardBlocks (cons_ne_nil x xs) (hb ▸ hlen) (hb ▸ hfit) false)

lemma Inv.handleSdu (h : b.Inv) (sdu : Bytes) (isRetx : Bool) :
    (b.handleSdu sdu isRetx).1.Inv ∧ MessagesBounded (b.handleSdu sdu isRetx).2 ∧
      accounted (b.handleSdu sdu isRetx) = b.discardBlocks.flatMap blockSns := by
  have hrunning := h.running
  have hfit := h.fit
  have hlen := h.length_lt.le
  cases hb : b.discardBlocks with
  | nil =>
    have heq : b.handleSdu sdu isRetx = ({ b with discardBlocks := [], dlNotifTimerRunning := false },
        [{ tPdu := sdu, dlUserData := { retransmissionFlag := isRetx } }]) := by
      simp [CuUpBearer.handleSdu, fillDiscardBlocks, hb, hrunning]
    rw [heq]
    exact sent_spec hrunning _ (fits_retransmissionFlag isRetx)
  | cons x xs =>
    have heq : b.handleSdu sdu isRetx = ({ b with discardBlocks := [], dlNotifTimerRunning := false },
        [{ tPdu := sdu, dlUserData := { retransmissionFlag := isRetx, discardBlocks := some (x :: xs) } }]) := by
      simp [CuUpBearer.handleSdu, fillDiscardBlocks, hb, hrunning]
    rw [heq]
    exact sent_spec hrunning _ (fits_discardBlocks (cons_ne_nil x xs) (hb ▸ hlen) (hb ▸ hfit) isRetx)

lemma Inv.onExpiredDlNotifTimer (h : b.Inv) :
    b.onExpiredDlNotifTimer.1.Inv ∧ MessagesBounded b.onExpiredDlNotifTimer.2 ∧
      accounted b.onExpiredDlNotifTimer = b.discardBlocks.flatMap blockSns := by
  have heq : b.onExpiredDlNotifTimer = b.flushDiscardBlocks := by simp [CuUpBearer.onExpiredDlNotifTimer, h.running]
  rw [heq]
  exact flushDiscardBlocks_spec h.running h.length_lt.le h.fit

lemma accounted_nil (b : CuUpBearer) : accounted (b, []) = b.discardBlocks.flatMap blockSns := rfl

/-- A discard is added to what is pending, unless it continues a block of 255 SNs. -/
structure Discards (b : CuUpBearer) (pdcpSn : ℕ) (r : CuUpBearer × List NruDlMessage) : Prop where
  inv : r.1.Inv
  bounded : MessagesBounded r.2
  kept : b.continuesFullBlock pdcpSn = false → accounted r = b.discardBlocks.flatMap blockSns ++ [pdcpSn]
  lost : b.continuesFullBlock pdcpSn = true →
    (accounted r).length + 255 = (b.discardBlocks.flatMap blockSns).length

lemma Inv.discardSdu_continue (h : b.Inv) {bs : List PdcpSnDiscardBlock} {last : PdcpSnDiscardBlock}
    (hb : b.discardBlocks = bs ++ [last]) (hext : (last.pdcpSnStart + last.blockSize) % 2 ^ 32 = pdcpSn) :
    b.Discards pdcpSn (b.discardSdu pdcpSn) := by
  have hlen := h.length_lt
  have hfit := h.fit
  rw [hb] at hlen hfit
  have hlast : b.discardBlocks.getLast? = some last := by rw [hb, getLast?_concat]
  have hdrop : b.discardBlocks.dropLast = bs := by rw [hb, dropLast_concat]
  have hbs : BlocksFit bs := fun x hx => hfit x (mem_append_left _ hx)
  obtain ⟨hstart, hsize⟩ := hfit last (mem_append_right _ (mem_singleton.mpr rfl))
  have hsns : blockSns last = range' last.pdcpSnStart last.blockSize := blockSns_eq hstart hsize
  have heq : b.discardSdu pdcpSn = ({ b with dlNotifTimerRunning := true, discardBlocks :=
      bs ++ [⟨last.pdcpSnStart, (last.blockSize + 1) % 2 ^ 8⟩] }, []) := by
    simp only [CuUpBearer.discardSdu, hlast, hext, if_true, hdrop]
  have hfull : b.continuesFullBlock pdcpSn = decide (last.blockSize = 255) := by
    rw [continuesFullBlock, hlast, Option.any_some]
    refine decide_eq_decide.mpr ⟨fun hf => hf.1, fun hf => ⟨hf, ?_⟩⟩
    rw [← hf]
    exact hext
  have hsize' : (last.blockSize + 1) % 2 ^ 8 < 2 ^ 8 := Nat.mod_lt _ (by decide)
  rw [heq]
  refine ⟨⟨h.running, ?_, hbs.concat ⟨hstart, hsize'⟩, fun _ => rfl⟩, nofun, fun hf => ?_, fun hf => ?_⟩
  · rw [length_append] at hlen ⊢
    exact hlen
  · rw [hfull] at hf
    have hlt : last.blockSize + 1 < 2 ^ 8 := by have := of_decide_eq_false hf; omega
    have hnew : last.pdcpSnStart + last.blockSize = pdcpSn := by omega
    rw [accounted_nil, hb, flatMap_append, flatMap_append, flatMap_singleton, flatMap_singleton,
      Nat.mod_eq_of_lt hlt, blockSns_eq hstart hlt, hsns, range'_1_concat, hnew, append_assoc]
  · rw [hfull] at hf
    have h255 : last.blockSize = 255 := of_decide_eq_true hf
    have hzero : (last.blockSize + 1) % 2 ^ 8 = 0 := by omega
    rw [accounted_nil, hb, flatMap_append, flatMap_append, flatMap_singleton, flatMap_singleton,
      blockSns_eq hstart hsize', hsns, hzero, h255, length_append, length_append, length_range',
      length_range', Nat.add_zero]

lemma Inv.discardSdu_new (h : b.Inv) (hsn : pdcpSn < 2 ^ 24) {last : PdcpSnDiscardBlock}
    (hlast : b.discardBlocks.getLast? = some last)
    (hext : ¬ (last.pdcpSnStart + last.blockSize) % 2 ^ 32 = pdcpSn) : b.Discards pdcpSn (b.discardSdu pdcpSn) := by
  have hfull : b.continuesFullBlock pdcpSn = false := by
    rw [continuesFullBlock, hlast, Option.any_some, decide_eq_false_iff_not]
    rintro ⟨h255, h'⟩
    rw [h255] at hext
    exact hext h'
  have hfit : BlocksFit (b.discardBlocks ++ [⟨pdcpSn, 1⟩]) := h.fit.concat ⟨hsn, show 1 < 2 ^ 8 by decide⟩
  have hnew : (b.discardBlocks ++ [(⟨pdcpSn, 1⟩ : PdcpSnDiscardBlock)]).flatMap blockSns =
      b.discardBlocks.flatMap blockSns ++ [pdcpSn] := by
    rw [flatMap_append, flatMap_singleton, blockSns_one hsn]
  have hlen : (b.discardBlocks ++ [(⟨pdcpSn, 1⟩ : PdcpSnDiscardBlock)]).length ≤ maxNofPdcpSnDiscardBlocks := by
    rw [length_append, length_singleton]
    exact h.length_lt
  have hlost (n m : ℕ) : b.continuesFullBlock pdcpSn = true → n = m := fun hf => by rw [hfull] at hf; cases hf
  by_cases hcap : (b.discardBlocks ++ [(⟨pdcpSn, 1⟩ : PdcpSnDiscardBlock)]).length = maxNofPdcpSnDiscardBlocks
  · have heq : b.discardSdu pdcpSn = flushDiscardBlocks
        { b with dlNotifTimerRunning := true, discardBlocks := b.discardBlocks ++ [⟨pdcpSn, 1⟩] } := by
      simp only [discardSdu, hlast, hext, if_false, hcap, if_true]
    rw [heq]
    obtain ⟨h1, h2, h3⟩ := flushDiscardBlocks_spec
      (b := { b with dlNotifTimerRunning := true, discardBlocks := b.discardBlocks ++ [⟨pdcpSn, 1⟩] })
      h.running hlen hfit
    exact ⟨h1, h2, fun _ => h3.trans hnew, hlost _ _⟩
  · have heq : b.discardSdu pdcpSn =
        ({ b with dlNotifTimerRunning := true, discardBlocks := b.discardBlocks ++ [⟨pdcpSn, 1⟩] }, []) := by
      simp only [CuUpBearer.discardSdu, hlast, hext, if_false, hcap]
    rw [heq]
    exact ⟨⟨h.running, lt_of_le_of_ne hlen hcap, hfit, fun _ => rfl⟩, nofun, fun _ => hnew, hlost _ _⟩

lemma Inv.discardSdu (h : b.Inv) (hsn : pdcpSn < 2 ^ 24) : b.Discards pdcpSn (b.discardSdu pdcpSn) := by
  cases hlast : b.discardBlocks.getLast? with
  | none =>
    have hb : b.discardBlocks = [] := getLast?_eq_none_iff.mp hlast
    have heq : b.discardSdu pdcpSn = ({ b with dlNotifTimerRunning := true, discardBlocks := [⟨pdcpSn, 1⟩] }, []) := by
      simp [CuUpBearer.discardSdu, hlast]
    rw [heq]
    refine ⟨⟨h.running, show 1 < 16 by decide, ?_, fun _ => rfl⟩, nofun, fun _ => ?_, fun hf => ?_⟩
    · have hnil : BlocksFit [] := nofun
      exact hnil.concat ⟨hsn, show 1 < 2 ^ 8 by decide⟩
    · rw [accounted_nil, hb, flatMap_singleton, blockSns_one hsn]
      rfl
    · rw [continuesFullBlock, hlast] at hf
      cases hf
  | some last =>
    obtain ⟨bs, hb⟩ := getLast?_eq_some_iff.mp hlast
    by_cases hext : (last.pdcpSnStart + last.blockSize) % 2 ^ 32 = pdcpSn
    · exact h.discardSdu_continue hb hext
    · exact h.discardSdu_new hsn hlast hext

end CuUpBearer

/-! ### Runs -/

namespace System

variable {s : System} {e : Event} {es : List Event}

/-- The SNs of `discard_sdu` calls fit the 24 bits of the PDU. -/
def SnsFit (es : List Event) : Prop := ∀ pdcpSn, .discardSdu pdcpSn ∈ es → pdcpSn < 2 ^ 24

/-- The discard would wrap the size of the last block. -/
def WrapsBlock (s : System) : Event → Prop
  | .discardSdu pdcpSn => s.cu.continuesFullBlock pdcpSn = true
  | _ => False

/-- The DU has been told exactly what was passed and is not pending. -/
def Exact (s : System) : Prop := s.discarded ++ s.pending = s.passed

lemma transmit_accounted (s : System) (r : CuUpBearer × List NruDlMessage) :
    (s.transmit r).discarded ++ (s.transmit r).pending = s.discarded ++ accounted r := by
  simp [discarded, pending, transmit, accounted]

/-- What all reachable states of the system satisfy. -/
structure Inv (s : System) : Prop where
  cu : s.cu.Inv
  bounded : CuUpBearer.MessagesBounded s.sent

lemma Inv.transmit (h : s.Inv) {r : CuUpBearer × List NruDlMessage} (hcu : r.1.Inv)
    (hmsgs : CuUpBearer.MessagesBounded r.2) : (s.transmit r).Inv := by
  refine ⟨hcu, fun m hm => ?_⟩
  rcases mem_append.mp hm with hm | hm
  · exact h.bounded m hm
  · exact hmsgs m hm

lemma Inv.step (h : s.Inv) (hsn : SnsFit [e]) : (s.step e).Inv := by
  cases e with
  | discardSdu pdcpSn =>
    have hd := h.cu.discardSdu (hsn pdcpSn (mem_singleton.mpr rfl))
    exact Inv.transmit (s := { s with passed := s.passed ++ [pdcpSn] }) ⟨h.cu, h.bounded⟩ hd.inv hd.bounded
  | handleSdu sdu isRetx =>
    obtain ⟨h1, h2, -⟩ := h.cu.handleSdu sdu isRetx
    exact h.transmit h1 h2
  | dlNotifTimerExpired =>
    obtain ⟨h1, h2, -⟩ := h.cu.onExpiredDlNotifTimer
    exact h.transmit h1 h2

lemma exact_step_iff (h : s.Inv) (hexact : s.Exact) (hsn : SnsFit [e]) : (s.step e).Exact ↔ ¬ s.WrapsBlock e := by
  unfold Exact at hexact ⊢
  cases e with
  | discardSdu pdcpSn =>
    have hdisc := h.cu.discardSdu (hsn pdcpSn (mem_singleton.mpr rfl))
    have hpassed : (s.step (.discardSdu pdcpSn)).passed = s.passed ++ [pdcpSn] := rfl
    rw [step, transmit_accounted, ← step, hpassed, WrapsBlock]
    have hd : ({ s with passed := s.passed ++ [pdcpSn] } : System).discarded = s.discarded := rfl
    rw [hd, ← hexact, append_assoc]
    cases hfull : s.cu.continuesFullBlock pdcpSn with
    | false =>
      rw [hdisc.kept hfull]
      simp [pending]
    | true =>
      refine ⟨fun heq => ?_, fun hf => absurd rfl hf⟩
      have hlen := congrArg List.length (append_cancel_left heq)
      have hl := hdisc.lost hfull
      rw [length_append, length_singleton, pending] at hlen
      omega
  | handleSdu sdu isRetx =>
    obtain ⟨-, -, hacc⟩ := h.cu.handleSdu sdu isRetx
    refine iff_of_true ?_ id
    rw [step, transmit_accounted, hacc]
    exact hexact
  | dlNotifTimerExpired =>
    obtain ⟨-, -, hacc⟩ := h.cu.onExpiredDlNotifTimer
    refine iff_of_true ?_ id
    rw [step, transmit_accounted, hacc]
    exact hexact

lemma inv_run (hsn : SnsFit es) : (run es).Inv := by
  induction es using reverseRecOn with
  | nil => exact ⟨CuUpBearer.inv_of_empty rfl rfl, nofun⟩
  | append_singleton es e ih =>
    rw [run_concat]
    exact (ih fun sn h => hsn sn (mem_append_left _ h)).step fun sn h => hsn sn (mem_append_right _ h)

/-- **Discard notification.** The DU is told exactly the discarded SNs iff no discard continues a block of 255 SNs. -/
theorem discard_notification_exact_iff (es : List Event) (hsn : SnsFit es) :
    ((∀ pre, pre <+: es → (run pre).Exact) ↔ ∀ pre e, pre ++ [e] <+: es → ¬ (run pre).WrapsBlock e) ∧
      (∀ m ∈ (run es).sent, m.dlUserData.blocks.length ≤ maxNofPdcpSnDiscardBlocks) ∧
      ((run es).cu.discardBlocks ≠ [] → (run es).cu.dlNotifTimerRunning = true) := by
  refine ⟨⟨fun hexact pre e hpre => ?_, fun hwrap pre hpre => ?_⟩, (inv_run hsn).bounded, (inv_run hsn).cu.timer⟩
  · have hpre' : pre <+: es := (prefix_append pre [e]).trans hpre
    have hfit : SnsFit (pre ++ [e]) := fun sn h => hsn sn (hpre.subset h)
    rw [← exact_step_iff (inv_run fun sn h => hfit sn (mem_append_left _ h)) (hexact pre hpre')
      fun sn h => hfit sn (mem_append_right _ h), ← run_concat]
    exact hexact _ hpre
  · induction pre using reverseRecOn with
    | nil => rfl
    | append_singleton pre e ih =>
      have hfit : SnsFit (pre ++ [e]) := fun sn h => hsn sn (hpre.subset h)
      have hpre' : pre <+: es := (prefix_append pre [e]).trans hpre
      rw [run_concat, exact_step_iff (inv_run fun sn h => hfit sn (mem_append_left _ h)) (ih hpre')
        fun sn h => hfit sn (mem_append_right _ h)]
      exact hwrap pre e hpre

/-- 256 SNs in a row are queued as a block of size 0, and the DU is told nothing. -/
theorem discards_256_lost : let s := run ((List.range 256).map .discardSdu ++ [.dlNotifTimerExpired])
    s.passed = List.range 256 ∧ s.sent.map (fun m => m.dlUserData.blocks) = [[⟨0, 0⟩]] ∧
      s.discarded = [] ∧ s.pending = [] := by
  decide +kernel

def shortRun : List Event := [.discardSdu 7, .discardSdu 8, .handleSdu [1] false, .discardSdu 3, .dlNotifTimerExpired]

lemma snsFit_shortRun : SnsFit shortRun := by
  intro sn h
  simp only [shortRun, mem_cons, Event.discardSdu.injEq, reduceCtorEq, not_mem_nil, or_false, false_or] at h
  omega

theorem discard_notification_shortRun :
    (run shortRun).discarded = [7, 8, 3] ∧
      ((∀ pre, pre <+: shortRun → (run pre).Exact) ↔ ∀ pre e, pre ++ [e] <+: shortRun → ¬ (run pre).WrapsBlock e) :=
  ⟨by decide +kernel, (discard_notification_exact_iff shortRun snsFit_shortRun).1⟩

end System

end SrsRan.F1u
