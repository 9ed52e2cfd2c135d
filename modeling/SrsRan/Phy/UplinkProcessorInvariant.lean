import SrsRan.Phy.UplinkProcessor
import Mathlib.Data.List.Perm.Basic

/-!
# Every uplink PDU is finished once

The invariant of the uplink processor: the PDUs that are left, in execution and finished are all PDUs of the slot, once each
(`Inv.perm`), and the word has their numbers and the flags of the threads (`Inv.word`).
-/

namespace SrsRan.Phy.Uplink

open Lib Lib.Run PendingPduCount List
open Counters (hasStatePendingPduInQueue_word isStateAcceptingPdu_word isStateLocked_word isStateStopped_word)
open Fault (notEnabled)

variable {Config : Type}

namespace Processor

variable (s : Processor Config)

/-- The word has the numbers of PDUs and the flags of the threads. -/
structure Encoded (c : Counters) : Prop where
  word : s.word = c.word
  accepting : c.accepting = s.owner.isAdding
  locked : c.locked = (s.handler.isSome || s.owner.isDiscarding)
  queue : c.queue + s.owner.uncounted = s.left.length + s.running.length
  exec : c.exec = if s.owner.isDiscarding then s.left.length else s.running.length

/-- The processor is stopped, and no PDU is left. -/
structure Stopped : Prop where
  word : s.word = stopped
  left : s.left = []
  running : s.running = []
  handler : s.handler = none
  notAdding : s.owner.isAdding = false
  notDiscarding : s.owner.isDiscarding = false

/-- The symbols that the handler names are symbols of the slot. -/
def HandlerPc.InRange (n : ℕ) : HandlerPc Config → Prop
  | .fetch endProcessedSymbol _ | .pdus endProcessedSymbol _ _ | .created endProcessedSymbol _ _ _
  | .dropping endProcessedSymbol _ _ _ => n < endProcessedSymbol ∧ endProcessedSymbol ≤ maxNsymbPerSlot
  | .unlock => n ≤ maxNsymbPerSlot

/-- What all reachable states satisfy. -/
structure Inv : Prop where
  perm : (s.left ++ s.running ++ s.finished).Perm (List.range s.added)
  word : s.Stopped ∨ ∃ c, s.Encoded c
  added_le : s.added ≤ 4095
  /-- who adds or discards PDUs is alone -/
  alone : s.owner.isAdding = true ∨ s.owner.isDiscarding = true → s.handler = none ∧ s.tasks = []
  cleared : s.owner = .adding ∨ s.owner = .pushed → s.nofProcessedSymbols = 0
  loaded : ∀ state n, s.owner = .loaded state n → skipDiscard state = false
  inSlot : ∀ symbol kind, s.owner = .discardFetch symbol kind → symbol < maxNsymbPerSlot
  inSlot' : ∀ symbol kind rest, s.owner = .discardPdus symbol kind rest → symbol < maxNsymbPerSlot
  processed_le : s.nofProcessedSymbols ≤ maxNsymbPerSlot
  inRange : ∀ pc, s.handler = some pc → HandlerPc.InRange s.nofProcessedSymbols pc

/-- What holds for the owner at its program counter. -/
def OwnerPc.Ok (n : ℕ) : OwnerPc Config → Prop
  | .adding | .pushed => n = 0
  | .loaded state _ => skipDiscard state = false
  | .discardFetch symbol _ | .discardPdus symbol _ _ => symbol < maxNsymbPerSlot
  | _ => True

variable {s}

lemma running_of_handler {pc : HandlerPc Config} (h : s.handler = some pc) : s.running = s.tasks ++ pc.running := by
  rw [running, h]
  rfl

lemma running_of_alone (hhandler : s.handler = none) (htasks : s.tasks = []) : s.running = [] := by
  rw [running, hhandler, htasks]
  rfl

lemma Encoded.unlocked {c : Counters} (hc : s.Encoded c) (h : c.locked = false) :
    s.handler = none ∧ s.owner.isDiscarding = false := by
  have hflags := hc.locked
  rw [h] at hflags
  obtain ⟨hsome, hd⟩ := Bool.or_eq_false_iff.mp hflags.symm
  exact ⟨Option.not_isSome_iff_eq_none.mp (Bool.eq_false_iff.mp hsome), hd⟩

/-- While nothing is handled or in execution, the counters are those of the owner. -/
lemma Encoded.of_alone {c : Counters} (hw : s.word = c.word) (hhandler : s.handler = none) (hrun : s.running = [])
    (hacc : c.accepting = s.owner.isAdding) (hlocked : c.locked = s.owner.isDiscarding)
    (hqueue : c.queue + s.owner.uncounted = s.left.length)
    (hexec : c.exec = if s.owner.isDiscarding then s.left.length else 0) : s.Encoded c := by
  refine ⟨hw, hacc, ?_, ?_, ?_⟩
  · rw [hlocked, hhandler]
    rfl
  · rw [hrun]
    exact hqueue
  · rw [hrun]
    exact hexec

lemma alone_of_free {P : Prop} (ha : s.owner.isAdding = false) (hd : s.owner.isDiscarding = false)
    (h : s.owner.isAdding = true ∨ s.owner.isDiscarding = true) : P := by
  rw [ha, hd] at h
  cases h <;> contradiction

namespace Inv

lemma of_ok (hperm : (s.left ++ s.running ++ s.finished).Perm (range s.added))
    (hword : s.Stopped ∨ ∃ c, s.Encoded c) (hadded : s.added ≤ 4095)
    (halone : s.owner.isAdding = true ∨ s.owner.isDiscarding = true → s.handler = none ∧ s.tasks = [])
    (hok : OwnerPc.Ok s.nofProcessedSymbols s.owner) (hle : s.nofProcessedSymbols ≤ maxNsymbPerSlot)
    (hrange : ∀ pc, s.handler = some pc → HandlerPc.InRange s.nofProcessedSymbols pc) : s.Inv := by
  refine ⟨hperm, hword, hadded, halone, ?_, ?_, ?_, ?_, hle, hrange⟩
  · rintro (h | h) <;> (rw [h] at hok; exact hok)
  all_goals
    intros
    rename_i h
    rw [h] at hok
    exact hok

lemma ok (h : s.Inv) : OwnerPc.Ok s.nofProcessedSymbols s.owner := by
  cases ho : s.owner with
  | adding => exact h.cleared (.inl ho)
  | pushed => exact h.cleared (.inr ho)
  | loaded state n => exact h.loaded state n ho
  | discardFetch symbol kind => exact h.inSlot symbol kind ho
  | discardPdus symbol kind rest => exact h.inSlot' symbol kind rest ho
  | _ => trivial

lemma left_init : (init : Processor Config).left = [] :=
  if_pos (show (isStateStopped idle || !hasStatePendingPduInQueue idle) = true by decide)

lemma init : (init : Processor Config).Inv where
  perm := by
    rw [left_init]
    exact Perm.refl []
  word := by
    refine .inr ⟨⟨0, 0, false, false, by decide, by decide⟩, rfl, rfl, rfl, ?_, rfl⟩
    rw [left_init]
    rfl
  added_le := Nat.zero_le _
  alone := fun h => by cases h <;> contradiction
  cleared := fun _ => rfl
  loaded := nofun
  inSlot := nofun
  inSlot' := nofun
  processed_le := Nat.zero_le _
  inRange := nofun

lemma length_eq (h : s.Inv) : s.left.length + s.running.length + s.finished.length = s.added := by
  have hlen := h.perm.length_eq
  rw [length_append, length_append, length_range] at hlen
  exact hlen

variable {owner : OwnerPc Config} {c : Counters} {symbol last : ℕ} {kind : PduKind}
   {entry : Entry Config} {rest : List (Entry Config)} {pc : HandlerPc Config} {s' : Processor Config}

lemma setOwner (h : s.Inv) (h1 : s.owner.isAdding = false) (h2 : s.owner.isDiscarding = false)
    (h3 : owner.isAdding = false) (h4 : owner.isDiscarding = false)
    (hok : OwnerPc.Ok s.nofProcessedSymbols owner) : Inv { s with owner := owner } := by
  have hleft : left { s with owner := owner } = s.left := by
    rw [left_of_free h1 h2, left_of_free h3 h4]
    rfl
  have huncounted : owner.uncounted = s.owner.uncounted := by
    rw [uncounted_of_free h1, uncounted_of_free h3]
  refine of_ok ?_ ?_ h.added_le (fun hbusy => alone_of_free h3 h4 hbusy) hok h.processed_le h.inRange
  · rw [hleft]
    exact h.perm
  · obtain hstop | ⟨c, hc⟩ := h.word
    · exact .inl ⟨hstop.word, hleft.trans hstop.left, hstop.running, hstop.handler, h3, h4⟩
    · refine .inr ⟨c, hc.word, ?_, ?_, ?_, ?_⟩
      · rw [hc.accepting, h1, h3]
      · rw [hc.locked, h2, h4]
      · rw [hleft, huncounted]
        exact hc.queue
      · rw [hc.exec, h2, h4, hleft]
        rfl

lemma evaluateDiscard (h : s.Inv) (h1 : s.owner.isAdding = false) (h2 : s.owner.isDiscarding = false) (n : ℕ) :
    (s.evaluateDiscard n).Inv := by
  unfold Processor.evaluateDiscard
  split
  · exact h.setOwner h1 h2 rfl rfl trivial
  next hskip => exact h.setOwner h1 h2 rfl rfl (Bool.eq_false_iff.mpr hskip)

lemma left_of_unlocked (hw : s.word = c.word) (h1 : s.owner.isAdding = false)
    (h2 : s.owner.isDiscarding = false) (hh : s.handler = none) :
    s.left = if c.queue = 0 then [] else s.numbersFrom s.nofProcessedSymbols := by
  rw [left_of_free h1 h2, freeLeft, hh]
  simp only [hw, isStateStopped_word, hasStatePendingPduInQueue_word, Bool.false_or]
  by_cases hq : c.queue = 0 <;> simp [hq]

lemma left_of_idle (word : ℕ) (h1 : s.owner.isAdding = false) (h2 : s.owner.isDiscarding = false) (hh : s.handler = none)
    (hw : s.word = word) (hidle : (isStateStopped word || !hasStatePendingPduInQueue word) = true) : s.left = [] := by
  rw [left_of_free h1 h2, freeLeft, hh, hw]
  exact if_pos hidle

lemma onFinish_eq (hw : s.word = c.word) (hacc : c.accepting = false) (hq : 0 < c.queue) (he : 0 < c.exec)
    (number : ℕ) : s.onFinishProcessingPdu number = .ok { s with
      word := Counters.word { c with
        queue := c.queue - 1, exec := c.exec - 1, queue_lt := lt_of_le_of_lt (Nat.sub_le _ _) c.queue_lt,
        exec_lt := lt_of_le_of_lt (Nat.sub_le _ _) c.exec_lt }
      finished := s.finished ++ [number] } := by
  have hcan : canFinishPdu s.word = true := by
    rw [canFinishPdu, hw]
    simp [hacc, hq.ne', he.ne']
  rw [onFinishProcessingPdu, if_pos hcan, hw, Counters.fetchSub_both hq he]

lemma exchangeDiscard (h : s.Inv) {state n : ℕ} (ho : s.owner = .loaded state n)
    (hn : s.word = state → s.word &&& 0xfff = n) : (s.exchangeDiscard state n).Inv := by
  have h1 : s.owner.isAdding = false := by rw [ho]; rfl
  have h2 : s.owner.isDiscarding = false := by rw [ho]; rfl
  unfold Processor.exchangeDiscard
  split
  next hstate =>
    have hskip := h.loaded state n ho
    replace hn := hn hstate
    subst hstate
    obtain hstop | ⟨c, hc⟩ := h.word
    · rw [hstop.word] at hskip
      exact absurd hskip (by decide)
    · have hw := hc.word
      rw [hw] at hskip hn
      rw [Counters.word_mod] at hn
      subst hn
      simp only [skipDiscard, isStateStopped_word, isStateLocked_word,
        hasStatePendingPduInQueue_word, Counters.hasStatePendingPduInExec_word, Bool.false_or, Bool.or_eq_false_iff,
        Bool.not_eq_false', decide_eq_true_eq, decide_eq_false_iff_not, not_not] at hskip
      obtain ⟨⟨hlocked, hqueue⟩, hexec⟩ := hskip
      have hacc : c.accepting = false := hc.accepting.trans h1
      have hhandler := (hc.unlocked hlocked).1
      have hrun : s.running = [] := by
        have := hc.exec
        rw [h2, hexec] at this
        exact length_eq_zero_iff.mp this.symm
      have htasks : s.tasks = [] := (append_eq_nil_iff.mp hrun).1
      have hleft : s.left = s.numbersFrom s.nofProcessedSymbols := by
        rw [left_of_unlocked hw h1 h2 hhandler, if_neg hqueue]
      have hlen : c.queue = s.left.length := by
        have := hc.queue
        rw [hrun, uncounted_of_free h1] at this
        exact this
      rw [hw, Counters.discarding_word hexec hlocked hacc]
      unfold discardSymbol
      split
      next hne =>
        have hlt : s.nofProcessedSymbols < maxNsymbPerSlot := Nat.lt_of_le_of_ne h.processed_le hne
        have hleft' := hleft.trans (numbersFrom_succ hlt)
        have hsum := hlen.trans (congrArg List.length hleft')
        refine of_ok ?_ (.inr ⟨_, .of_alone rfl hhandler hrun hacc rfl hsum hsum⟩) h.added_le
          (fun _ => ⟨hhandler, htasks⟩) hlt h.processed_le h.inRange
        have hperm := h.perm
        rw [hleft'] at hperm
        exact hperm
      next hend =>
        rw [not_not.mp hend, numbersFrom_end] at hleft
        rw [hleft] at hlen
        exact absurd hlen hqueue
  · exact h.evaluateDiscard h1 h2 n

lemma isAdding_of_discarding (h : owner.isDiscarding = true) : owner.isAdding = false := by
  cases owner with
  | discardFetch _ _ => rfl
  | discardPdus _ _ _ => rfl
  | discardEnd => rfl
  | _ => cases h

lemma of_discarding (h : s.Inv) (hd : s.owner.isDiscarding = true) : ∃ c : Counters, s.word = c.word ∧
    c.accepting = false ∧ c.locked = true ∧ c.queue = s.left.length ∧ c.exec = s.left.length ∧ s.running = [] := by
  have hacc := isAdding_of_discarding hd
  obtain ⟨hhandler, htasks⟩ := h.alone (.inr hd)
  have hrun := running_of_alone hhandler htasks
  obtain hstop | ⟨c, hc⟩ := h.word
  · rw [hstop.notDiscarding] at hd
    cases hd
  · have hqueue := hc.queue
    have hexec := hc.exec
    rw [hrun, uncounted_of_free hacc] at hqueue
    rw [hd] at hexec
    refine ⟨c, hc.word, hc.accepting.trans hacc, ?_, hqueue, hexec, hrun⟩
    rw [hc.locked, hd, Bool.or_true]

lemma moveDiscard (h : s.Inv) (hd : s.owner.isDiscarding = true) (hd' : owner.isDiscarding = true)
    (hleft : left { s with owner := owner } = s.left) (hok : OwnerPc.Ok s.nofProcessedSymbols owner) :
    Inv { s with owner := owner } := by
  obtain ⟨c, hw, hacc, hlocked, hqueue, hexec, hrun⟩ := h.of_discarding hd
  have hacc' := isAdding_of_discarding hd'
  have halone := h.alone (.inr hd)
  refine of_ok ?_ (.inr ⟨c, .of_alone hw halone.1 hrun (hacc.trans hacc'.symm) (hlocked.trans hd'.symm) ?_ ?_⟩) h.added_le
    (fun _ => halone) hok h.processed_le h.inRange
  · rw [hleft]
    exact h.perm
  · rw [hleft, uncounted_of_free hacc', hqueue]
    rfl
  · rw [hleft, hexec, hd']
    rfl

lemma map_getPdus (hw : s.word = c.word) (hnil : c.queue = 0 → s.numbers kind symbol = []) :
    (s.getPdus kind symbol).map Entry.number = s.numbers kind symbol := by
  unfold getPdus
  rw [hw, hasStatePendingPduInQueue_word]
  by_cases hq : c.queue = 0
  · simp [hq, hnil hq]
  · simp [hq]
    rfl

lemma discardFetch (h : s.Inv) (ho : s.owner = .discardFetch symbol kind) :
    Inv { s with owner := .discardPdus symbol kind (s.getPdus kind symbol) } := by
  have hd : s.owner.isDiscarding = true := by rw [ho]; rfl
  obtain ⟨c, hw, -, -, hqueue, -, -⟩ := h.of_discarding hd
  have hleft : s.left = s.numbers kind symbol ++ s.numbersAfter kind symbol ++ s.numbersFrom (symbol + 1) := by
    unfold left
    rw [ho]
  have hpdus : (s.getPdus kind symbol).map Entry.number = s.numbers kind symbol := by
    refine map_getPdus hw fun hq => ?_
    rw [hq, hleft] at hqueue
    have hzero := length_eq_zero_iff.mp hqueue.symm
    exact (append_eq_nil_iff.mp (append_eq_nil_iff.mp hzero).1).1
  refine h.moveDiscard hd rfl ?_ (h.inSlot symbol kind ho)
  rw [hleft, ← hpdus]
  rfl

lemma discardPdu (h : s.Inv) (ho : s.owner = .discardPdus symbol kind (entry :: rest)) :
    Post (· = notEnabled) Inv (s.ownerStep (.discardPdus symbol kind (entry :: rest))) := by
  have hd : s.owner.isDiscarding = true := by rw [ho]; rfl
  obtain ⟨c, hw, hacc, hlocked, hqueue, hexec, hrun⟩ := h.of_discarding hd
  set behind := rest.map Entry.number ++ s.numbersAfter kind symbol ++ s.numbersFrom (symbol + 1)
  have hleft : s.left = entry.number :: behind := by
    unfold left
    rw [ho]
    rfl
  have hpos : s.left.length = behind.length + 1 := by
    rw [hleft, length_cons]
  have halone := h.alone (.inr hd)
  show Post _ Inv ((s.onFinishProcessingPdu entry.number) >>= _)
  rw [onFinish_eq hw hacc (by omega) (by omega), ok_bind]
  refine of_ok ?_ (.inr ⟨_, .of_alone rfl halone.1 hrun hacc hlocked ?_ ?_⟩) h.added_le (fun _ => halone)
    (h.inSlot' symbol kind _ ho) h.processed_le h.inRange
  · have hperm := h.perm
    rw [hleft, hrun, append_nil] at hperm
    refine List.Perm.trans ?_ hperm
    show (behind ++ s.running ++ (s.finished ++ [entry.number])).Perm _
    rw [hrun, append_nil, ← append_assoc]
    exact (perm_append_singleton _ _)
  · show c.queue - 1 + 0 = behind.length
    omega
  · show c.exec - 1 = behind.length
    omega

lemma discardNext (h : s.Inv) (ho : s.owner = .discardPdus symbol kind []) :
    Post (· = notEnabled) Inv (s.ownerStep (.discardPdus symbol kind [])) := by
  have hd : s.owner.isDiscarding = true := by rw [ho]; rfl
  have hlt := h.inSlot' symbol kind [] ho
  have hleft : s.left = s.numbersAfter kind symbol ++ s.numbersFrom (symbol + 1) := by
    unfold left
    rw [ho]
    rfl
  simp only [ownerStep]
  split
  next kind' hnext =>
    refine h.moveDiscard hd (show (OwnerPc.discardFetch symbol kind').isDiscarding = true from rfl) ?_ hlt
    rw [hleft, numbersAfter_of_next hnext]
    rfl
  next hnext =>
    rw [numbersAfter_of_last hnext, nil_append] at hleft
    unfold discardSymbol
    split
    next hne =>
      have hlt' : symbol + 1 < maxNsymbPerSlot := Nat.lt_of_le_of_ne hlt hne
      refine h.moveDiscard hd rfl ?_ hlt'
      rw [hleft, numbersFrom_succ hlt']
      rfl
    next hend =>
      refine h.moveDiscard hd rfl ?_ trivial
      rw [hleft, not_not.mp hend, numbersFrom_end]
      rfl

/-- **The end of the discard** finds both counters at zero. -/
lemma finishDiscardSlot (h : s.Inv) (ho : s.owner = .discardEnd) : Post (· = notEnabled) Inv s.finishDiscardSlot := by
  have hd : s.owner.isDiscarding = true := by rw [ho]; rfl
  obtain ⟨c, hw, -, hlocked, hqueue, hexec, hrun⟩ := h.of_discarding hd
  obtain ⟨hhandler, htasks⟩ := h.alone (.inr hd)
  have hleft : s.left = [] := by
    unfold left
    rw [ho]
  rw [hleft, length_nil] at hqueue hexec
  have hdiscarded : isDiscarded s.word = true := by
    rw [isDiscarded, hw]
    simp [hqueue, hexec, hlocked]
  unfold Processor.finishDiscardSlot
  rw [if_pos hdiscarded]
  have hleft' : left { s with word := idle, owner := .reserving } = [] :=
    left_of_idle idle rfl rfl hhandler rfl (by decide)
  refine of_ok ?_ (.inr ⟨⟨0, 0, false, false, by decide, by decide⟩, .of_alone rfl hhandler hrun rfl rfl ?_ rfl⟩)
    h.added_le (alone_of_free rfl rfl) trivial h.processed_le h.inRange
  · have hperm := h.perm
    rw [hleft] at hperm
    rw [hleft']
    exact hperm
  · rw [hleft']
    rfl

lemma reserveOnNewSlot (h : s.Inv) (ho : s.owner = .reserving) : s.reserveOnNewSlot.Inv := by
  have h1 : s.owner.isAdding = false := by rw [ho]; rfl
  have h2 : s.owner.isDiscarding = false := by rw [ho]; rfl
  unfold Processor.reserveOnNewSlot
  split
  next hidle =>
    obtain hstop | ⟨c, hc⟩ := h.word
    · rw [hstop.word] at hidle
      cases hidle
    · obtain ⟨hq, he, hlocked, -⟩ := c.word_eq_idle.mp (hc.word ▸ hidle)
      have hqueue := hc.queue
      rw [hq, uncounted_of_free h1] at hqueue
      have hleft : s.left = [] := length_eq_zero_iff.mp (by omega)
      have hrun : s.running = [] := length_eq_zero_iff.mp (by omega)
      have hhandler := (hc.unlocked hlocked).1
      refine of_ok ?_ (.inr ⟨⟨0, 0, false, true, by decide, by decide⟩, .of_alone rfl hhandler hrun rfl rfl rfl rfl⟩)
        h.added_le (fun _ => ⟨hhandler, (append_eq_nil_iff.mp hrun).1⟩) trivial h.processed_le h.inRange
      have hperm := h.perm
      rw [hleft] at hperm
      exact hperm
  · exact h.setOwner h1 h2 rfl rfl trivial

lemma numbersFrom_empty (hrep : s.repository = fun _ _ => []) (symbol : ℕ) : s.numbersFrom symbol = [] := by
  unfold numbersFrom numbersAfter numbers
  rw [hrep]
  refine flatMap_eq_nil_iff.mpr fun k _ => ?_
  rfl

section

variable (h : s.Inv)
include h

lemma clear (ho : s.owner = .clearing) : s.clear.Inv := by
  obtain ⟨hhandler, htasks⟩ := h.alone (.inl (ho ▸ rfl))
  have hrun := running_of_alone hhandler htasks
  have hleft : s.clear.left = [] := numbersFrom_empty rfl 0
  obtain hstop | ⟨c, hc⟩ := h.word
  · have := hstop.notAdding
    rw [ho] at this
    cases this
  · have hleft0 : s.left = [] := by
      unfold left
      rw [ho]
    have hqueue := hc.queue
    have hexec := hc.exec
    have hacc := hc.accepting
    have hlocked := hc.locked
    rw [hleft0, hrun, ho] at hqueue
    rw [hrun, ho] at hexec
    rw [ho] at hacc
    rw [ho, hhandler] at hlocked
    refine of_ok ?_ (.inr ⟨c, .of_alone hc.word hhandler hrun hacc hlocked ?_ hexec⟩) (Nat.zero_le _)
      (fun _ => ⟨hhandler, htasks⟩) rfl (Nat.zero_le _) ?_
    · rw [hleft]
      show ([] ++ s.running ++ []).Perm _
      rw [hrun]
      exact Perm.refl []
    · rw [hleft]
      exact hqueue
    · intro pc h'
      have h' : s.handler = some pc := h'
      rw [hhandler] at h'
      cases h'

lemma of_adding (ho : s.owner = .adding ∨ s.owner = .pushed) : ∃ c : Counters, s.Encoded c ∧
    c.accepting = true ∧ c.locked = false ∧ s.handler = none ∧ s.tasks = [] ∧ s.running = [] ∧ c.exec = 0 ∧
    s.left = s.numbersFrom 0 := by
  have ha : s.owner.isAdding = true := by obtain ho | ho := ho <;> rw [ho] <;> rfl
  have hd : s.owner.isDiscarding = false := by obtain ho | ho := ho <;> rw [ho] <;> rfl
  have hleft : s.left = s.numbersFrom 0 := by
    unfold left
    obtain ho | ho := ho <;> rw [ho]
  obtain ⟨hhandler, htasks⟩ := h.alone (.inl ha)
  have hrun := running_of_alone hhandler htasks
  obtain hstop | ⟨c, hc⟩ := h.word
  · rw [hstop.notAdding] at ha
    cases ha
  · refine ⟨c, hc, hc.accepting.trans ha, ?_, hhandler, htasks, hrun, ?_, hleft⟩
    · rw [hc.locked, hhandler, hd]
      rfl
    · rw [hc.exec, hd, hrun]
      rfl

lemma incrementPendingPduCount (ho : s.owner = .pushed) : Post (· = notEnabled) Inv s.incrementPendingPduCount := by
  obtain ⟨c, hc, hacc, hlocked, hhandler, htasks, hrun, hexec, hleft⟩ := h.of_adding (.inr ho)
  have hqueue := hc.queue
  have hlen := h.length_eq
  have hadded := h.added_le
  rw [ho, hrun] at hqueue
  have hqueue : c.queue + 1 = s.left.length := hqueue
  rw [hrun, length_nil] at hlen
  unfold Processor.incrementPendingPduCount
  rw [hc.word, isStateAcceptingPdu_word, if_pos hacc, Counters.fetchAdd_queue (by omega)]
  have hleft' : left { s with word := Counters.word { c with queue := c.queue + 1, queue_lt := by omega },
                              owner := .adding } = s.left := hleft.symm
  refine of_ok ?_ (.inr ⟨_, .of_alone rfl hhandler hrun hacc hlocked ?_ hexec⟩) h.added_le (fun _ => ⟨hhandler, htasks⟩)
    (h.cleared (.inr ho)) h.processed_le h.inRange
  · rw [hleft']
    exact h.perm
  · rw [hleft']
    exact hqueue

lemma finishAddingPdus (ho : s.owner = .adding) : Post (· = notEnabled) Inv s.finishAddingPdus := by
  obtain ⟨c, hc, hacc, hlocked, hhandler, htasks, hrun, hexec, hleft⟩ := h.of_adding (.inl ho)
  have hqueue := hc.queue
  rw [ho, hrun] at hqueue
  have hqueue : c.queue = s.left.length := hqueue
  unfold Processor.finishAddingPdus
  rw [hc.word, isStateAcceptingPdu_word, if_pos hacc, Counters.xor_accepting hacc]
  have hleft' : left { s with word := Counters.word { c with accepting := false }, owner := .finishing } = s.left := by
    refine (left_of_unlocked (s := { s with word := _, owner := .finishing }) rfl rfl rfl hhandler).trans ?_
    show (if c.queue = 0 then [] else s.numbersFrom s.nofProcessedSymbols) = s.left
    rw [h.cleared (.inl ho), ← hleft]
    split
    · exact (length_eq_zero_iff.mp (by omega)).symm
    · rfl
  refine of_ok ?_ (.inr ⟨_, .of_alone rfl hhandler hrun rfl hlocked ?_ hexec⟩) h.added_le (alone_of_free rfl rfl) trivial
    h.processed_le h.inRange
  · rw [hleft']
    exact h.perm
  · rw [hleft']
    exact hqueue

lemma of_handler (hh : s.handler = some pc) : ∃ c : Counters, s.word = c.word ∧
    c.accepting = false ∧ c.locked = true ∧ s.owner.isAdding = false ∧ s.owner.isDiscarding = false ∧
    s.left = s.handlerLeft pc ∧ c.queue = (s.handlerLeft pc).length + s.running.length ∧ c.exec = s.running.length := by
  have hnot {b : Bool} (himp : b = true → s.handler = none ∧ s.tasks = []) : b = false := by
    refine Bool.eq_false_iff.mpr fun hb => ?_
    rw [(himp hb).1] at hh
    cases hh
  have ha : s.owner.isAdding = false := hnot fun hb => h.alone (.inl hb)
  have hd : s.owner.isDiscarding = false := hnot fun hb => h.alone (.inr hb)
  have hleft : s.left = s.handlerLeft pc := by
    rw [left_of_free ha hd, freeLeft, hh]
  obtain hstop | ⟨c, hc⟩ := h.word
  · rw [hstop.handler] at hh
    cases hh
  · have hqueue := hc.queue
    have hexec := hc.exec
    rw [uncounted_of_free ha, hleft] at hqueue
    rw [hd] at hexec
    refine ⟨c, hc.word, hc.accepting.trans ha, ?_, ha, hd, hleft, hqueue, hexec⟩
    rw [hc.locked, hh]
    rfl

lemma moveHandler (hh : s.handler = some pc)
    {pc' : HandlerPc Config} (howner : s'.owner = s.owner) (hadded : s'.added = s.added)
    (hh' : s'.handler = some pc') (hw : s'.word = c.word)
    (hacc : c.accepting = false) (hlocked : c.locked = true)
    (hperm : (s'.handlerLeft pc' ++ s'.running ++ s'.finished).Perm (s.handlerLeft pc ++ s.running ++ s.finished))
    (hqueue : c.queue = (s'.handlerLeft pc').length + s'.running.length) (hexec : c.exec = s'.running.length)
    (hrange : HandlerPc.InRange s'.nofProcessedSymbols pc') (hle : s'.nofProcessedSymbols ≤ maxNsymbPerSlot) : s'.Inv := by
  obtain ⟨-, -, -, -, ha, hd, hleft, -, -⟩ := h.of_handler hh
  have hleft' : s'.left = s'.handlerLeft pc' := by
    rw [left_of_free (howner ▸ ha) (howner ▸ hd), freeLeft, hh']
  refine ⟨?_, .inr ⟨c, hw, ?_, ?_, ?_, ?_⟩, hadded ▸ h.added_le, ?_, ?_, ?_, ?_, ?_, hle, ?_⟩
  · rw [hleft', hadded]
    refine hperm.trans ?_
    rw [← hleft]
    exact h.perm
  · rw [hacc, howner, ha]
  · rw [hlocked, hh']
    rfl
  · rw [hleft', howner, uncounted_of_free ha]
    exact hqueue
  · rw [howner, hd]
    exact hexec
  · rw [howner]
    exact alone_of_free ha hd
  · rw [howner]
    rintro (h' | h') <;> (rw [h'] at ha; cases ha)
  · rw [howner]
    exact h.loaded
  · rw [howner]
    exact h.inSlot
  · rw [howner]
    exact h.inSlot'
  · intro pc'' hpc
    rw [hh'] at hpc
    cases hpc
    exact hrange

lemma stepHandler (hh : s.handler = some pc)
    {pc' : HandlerPc Config} (howner : s'.owner = s.owner) (hadded : s'.added = s.added) (hword : s'.word = s.word)
    (hfin : s'.finished = s.finished) (hh' : s'.handler = some pc') (hleft : s'.handlerLeft pc' = s.handlerLeft pc)
    (hrun : s'.running = s.running) (hrange : HandlerPc.InRange s'.nofProcessedSymbols pc')
    (hle : s'.nofProcessedSymbols ≤ maxNsymbPerSlot) : s'.Inv := by
  obtain ⟨c, hw, hacc, hlocked, -, -, -, hqueue, hexec⟩ := h.of_handler hh
  refine h.moveHandler hh howner hadded hh' (hword.trans hw) hacc hlocked ?_ ?_ ?_ hrange hle
  · rw [hleft, hrun, hfin]
  · rw [hleft, hrun]
    exact hqueue
  · rw [hrun]
    exact hexec

end

/-! ### The threads that handle symbols -/

lemma handleSymbol_eq (hle : s.nofProcessedSymbols ≤ last)
    (hend : last ≤ maxNsymbPerSlot) : ∃ pc, s.handleSymbol last = { s with handler := some pc } ∧
      s.handlerLeft pc = s.numbersFrom s.nofProcessedSymbols ∧ pc.running = [] ∧
      HandlerPc.InRange s.nofProcessedSymbols pc := by
  unfold handleSymbol
  split
  next hne =>
    have hlt : s.nofProcessedSymbols < last := Nat.lt_of_le_of_ne hle hne
    exact ⟨.fetch last .pucch, rfl, (numbersFrom_succ (hlt.trans_le hend)).symm, rfl, hlt, hend⟩
  · exact ⟨.unlock, rfl, rfl, rfl, hle.trans hend⟩

section

variable (h : s.Inv)
include h

lemma handleRxSymbol (endSymbolIndex : ℕ)
    (hcond : skipHandleRxSymbol s.word = true ∨ isStateAcceptingPdu s.word = false) :
    Post (· = notEnabled) Inv (s.handleRxSymbol endSymbolIndex) := by
  unfold Processor.handleRxSymbol
  split
  · exact h
  next hskip =>
    obtain hstop | ⟨c, hc⟩ := h.word
    · rw [hstop.word] at hskip
      exact absurd (by decide) hskip
    · have hacc : c.accepting = false := by
        have := hcond.resolve_left hskip
        rwa [hc.word, isStateAcceptingPdu_word] at this
      have hw := hc.word
      rw [hw] at hskip
      simp only [skipHandleRxSymbol, isStateStopped_word, Counters.isStateLocked_word,
        Counters.hasStatePendingPduInQueue_word, Bool.false_or, Bool.or_eq_true, Bool.not_eq_true', decide_eq_false_iff_not,
        not_or, not_not, Bool.not_eq_true] at hskip
      obtain ⟨hlocked, hqueue⟩ := hskip
      have ha : s.owner.isAdding = false := hc.accepting.symm.trans hacc
      obtain ⟨hhandler, hd⟩ := hc.unlocked hlocked
      have hleft : s.left = s.numbersFrom s.nofProcessedSymbols := by
        rw [left_of_unlocked hw ha hd hhandler, if_neg hqueue]
      have hrun : s.running = s.tasks := by
        unfold running
        rw [hhandler]
        exact append_nil _
      -- whatever the position, the same PDUs are left
      have hlock (pc : HandlerPc Config) (hpc : s.handlerLeft pc = s.numbersFrom s.nofProcessedSymbols) (hr : pc.running = [])
          (hrange : HandlerPc.InRange s.nofProcessedSymbols pc) :
          Inv { s with word := s.word ||| lockedMask, handler := some pc } := by
        have hleft' : left { s with word := s.word ||| lockedMask, handler := some pc } = s.left := by
          rw [hleft, ← hpc]
          exact left_of_free (s := { s with word := s.word ||| lockedMask, handler := some pc }) ha hd
        have hrun' : running { s with word := s.word ||| lockedMask, handler := some pc } = s.running := by
          rw [hrun]
          show s.tasks ++ pc.running = s.tasks
          rw [hr, append_nil]
        refine of_ok ?_ (.inr ⟨{ c with locked := true }, ?_, hc.accepting, rfl, ?_, ?_⟩) h.added_le (alone_of_free ha hd)
          h.ok h.processed_le ?_
        · rw [hleft', hrun']
          exact h.perm
        · rw [hw, Counters.or_locked hlocked]
        · rw [hleft', hrun']
          exact hc.queue
        · rw [hleft', hrun']
          exact hc.exec
        · intro pc' hpc'
          cases hpc'
          exact hrange
      rw [hhandler]
      dsimp only
      split
      · exact hlock .unlock rfl rfl h.processed_le
      · have hsymbols := h.processed_le
        obtain ⟨pc, heq, hpc, hr, hrange⟩ := handleSymbol_eq (s := { s with word := s.word ||| lockedMask })
          (show s.nofProcessedSymbols ≤ min (endSymbolIndex + 1) maxNsymbPerSlot by omega) (Nat.min_le_right _ _)
        show Inv (handleSymbol { s with word := s.word ||| lockedMask } _)
        rw [heq]
        exact hlock pc hpc hr hrange

lemma handlerFetch (hh : s.handler = some (.fetch last kind)) :
    Inv { s with handler := some (.pdus last kind (s.getPdus kind s.nofProcessedSymbols)) } := by
  obtain ⟨c, hw, -, -, -, -, -, hqueue, -⟩ := h.of_handler hh
  have hrange := h.inRange _ hh
  have hpdus : (s.getPdus kind s.nofProcessedSymbols).map Entry.number = s.numbers kind s.nofProcessedSymbols := by
    refine map_getPdus hw fun hq => ?_
    have hzero : s.handlerLeft (.fetch last kind) = [] := length_eq_zero_iff.mp (by omega)
    exact (append_eq_nil_iff.mp (append_eq_nil_iff.mp hzero).1).1
  refine h.stepHandler hh rfl rfl rfl rfl rfl ?_ (running_of_handler hh).symm hrange h.processed_le
  show (s.getPdus kind s.nofProcessedSymbols).map Entry.number ++ _ ++ _ = _
  rw [hpdus]
  rfl

lemma onCreatePduTask (hh : s.handler = some (.pdus last kind (entry :: rest))) :
    Post (· = notEnabled) Inv (s.onCreatePduTask last kind entry rest) := by
  obtain ⟨c, hw, hacc, hlocked, -, -, -, hqueue, hexec⟩ := h.of_handler hh
  have hrange := h.inRange _ hh
  have hleft : s.handlerLeft (.pdus last kind (entry :: rest)) =
      entry.number :: s.handlerLeft (.created last kind entry rest) := rfl
  have hrun : s.running = s.tasks := (running_of_handler hh).trans (append_nil _)
  rw [hleft, length_cons, hrun] at hqueue
  rw [hrun] at hexec
  have hbound := c.queue_lt
  have hcan : canCreateTask c.word = true := by
    rw [canCreateTask, isStateAcceptingPdu_word, hacc, hasStatePendingPduInQueue_word]
    simp
    omega
  unfold Processor.onCreatePduTask
  rw [hw, isStateStopped_word, if_neg Bool.false_ne_true, if_pos hcan,
    Counters.fetchAdd_exec (show c.exec + 1 < 4096 by omega)]
  refine h.moveHandler hh rfl rfl rfl rfl hacc hlocked ?_ ?_ ?_ hrange h.processed_le
  · rw [hleft, hrun]
    show (s.handlerLeft (.created last kind entry rest) ++ (s.tasks ++ [entry.number]) ++ s.finished).Perm _
    rw [← append_assoc]
    exact (perm_append_singleton _ _).append_right _
  · show c.queue = (s.handlerLeft (.created last kind entry rest)).length + (s.tasks ++ [entry.number]).length
    rw [length_append, length_singleton]
    omega
  · show c.exec + 1 = (s.tasks ++ [entry.number]).length
    rw [length_append, length_singleton]
    omega

lemma handlerNext (hh : s.handler = some (.pdus last kind [])) :
    Post (· = notEnabled) Inv (s.handlerStep (.pdus last kind [])) := by
  obtain ⟨hlt, hend⟩ := h.inRange _ hh
  have hleft : s.handlerLeft (.pdus last kind []) =
      s.numbersAfter kind s.nofProcessedSymbols ++ s.numbersFrom (s.nofProcessedSymbols + 1) := rfl
  have hrun := running_of_handler hh
  simp only [handlerStep]
  split
  next kind' hnext =>
    refine h.stepHandler hh rfl rfl rfl rfl rfl ?_ hrun.symm ⟨hlt, hend⟩ h.processed_le
    rw [hleft, numbersAfter_of_next hnext]
    rfl
  next hnext =>
    rw [numbersAfter_of_last hnext, nil_append] at hleft
    obtain ⟨pc, heq, hpc, hr, hrange⟩ := handleSymbol_eq (s := { s with nofProcessedSymbols := s.nofProcessedSymbols + 1 })
      hlt hend
    rw [heq]
    refine h.stepHandler hh rfl rfl rfl rfl rfl (hpc.trans hleft.symm) ?_ hrange (le_trans hlt hend)
    show s.tasks ++ pc.running = s.running
    rw [hr, hrun]
    rfl

lemma handlerDrop (hh : s.handler = some (.dropping last kind entry rest)) :
    Post (· = notEnabled) Inv (s.handlerStep (.dropping last kind entry rest)) := by
  obtain ⟨c, hw, hacc, hlocked, -, -, -, hqueue, hexec⟩ := h.of_handler hh
  have hrange := h.inRange _ hh
  have hrun : s.running = s.tasks ++ [entry.number] := running_of_handler hh
  rw [hrun, length_append, length_singleton] at hqueue hexec
  show Post _ Inv ((s.onFinishProcessingPdu entry.number) >>= _)
  rw [onFinish_eq hw hacc (by omega) (by omega), ok_bind]
  refine h.moveHandler hh rfl rfl rfl rfl hacc hlocked ?_ ?_ ?_ hrange h.processed_le
  · rw [hrun]
    show (s.handlerLeft (.dropping last kind entry rest) ++ (s.tasks ++ []) ++ (s.finished ++ [entry.number])).Perm _
    rw [append_nil, append_assoc, append_assoc, append_assoc]
    refine ((perm_append_comm).append_left s.tasks).append_left _ |>.trans ?_
    rfl
  · show c.queue - 1 = (s.handlerLeft (.dropping last kind entry rest)).length + (s.tasks ++ []).length
    rw [append_nil]
    omega
  · show c.exec - 1 = (s.tasks ++ []).length
    rw [append_nil]
    omega

lemma enqueue (success : Bool) : Post (· = notEnabled) Inv (s.enqueue success) := by
  unfold Processor.enqueue
  split
  next last kind entry rest hh =>
    have hrun : s.running = s.tasks ++ [entry.number] := running_of_handler hh
    have hrange := h.inRange _ hh
    cases success with
    | true =>
      refine h.stepHandler hh rfl rfl rfl rfl rfl rfl ?_ hrange h.processed_le
      rw [hrun]
      exact append_nil _
    | false => exact h.stepHandler hh rfl rfl rfl rfl rfl rfl hrun.symm hrange h.processed_le
  · rfl

lemma finishHandleRxSymbol (hh : s.handler = some .unlock) : Post (· = notEnabled) Inv s.finishHandleRxSymbol := by
  obtain ⟨c, hw, hacc, hlocked, ha, hd, hleft, hqueue, hexec⟩ := h.of_handler hh
  have hrun : s.running = s.tasks ++ [] := running_of_handler hh
  have hleft' : left { s with word := Counters.word { c with locked := false }, handler := none } = s.left := by
    refine (left_of_unlocked (s := { s with word := _, handler := none }) rfl ha hd rfl).trans ?_
    show (if c.queue = 0 then [] else s.numbersFrom s.nofProcessedSymbols) = s.left
    split
    · rw [hleft]
      exact (length_eq_zero_iff.mp (by omega)).symm
    · exact hleft.symm
  unfold Processor.finishHandleRxSymbol
  rw [hw, isStateLocked_word, if_pos hlocked, Counters.xor_locked hlocked]
  refine of_ok ?_ (.inr ⟨_, rfl, hacc.trans ha.symm, hd.symm, ?_, ?_⟩) h.added_le (alone_of_free ha hd) h.ok h.processed_le ?_
  · rw [hleft']
    show (s.left ++ (s.tasks ++ []) ++ s.finished).Perm _
    rw [← hrun]
    exact h.perm
  · rw [hleft']
    show c.queue + s.owner.uncounted = s.left.length + (s.tasks ++ []).length
    rw [← hrun, uncounted_of_free ha, hleft]
    exact hqueue
  · show c.exec = if s.owner.isDiscarding then _ else (s.tasks ++ []).length
    rw [← hrun, hd]
    exact hexec
  · intro pc h'
    cases h'

end

/-! ### Tasks and the other actions -/

lemma numbersFrom_congr (hrep : s'.repository = s.repository) (symbol : ℕ) :
    s'.numbersFrom symbol = s.numbersFrom symbol := by
  unfold numbersFrom numbersAfter numbers
  rw [hrep]

lemma handlerLeft_congr (hrep : s'.repository = s.repository)
    (hn : s'.nofProcessedSymbols = s.nofProcessedSymbols) (pc : HandlerPc Config) : s'.handlerLeft pc = s.handlerLeft pc := by
  cases pc <;> simp only [handlerLeft, numbersFrom_congr hrep, numbersAfter, numbers, hrep, hn]

lemma left_of_finished (howner : s'.owner = s.owner) (hhandler : s'.handler = s.handler)
    (hrep : s'.repository = s.repository) (hn : s'.nofProcessedSymbols = s.nofProcessedSymbols)
    (ha : s.owner.isAdding = false) (hd : s.owner.isDiscarding = false) {c' : Counters} (hw : s.word = c.word)
    (hw' : s'.word = c'.word) (hq : c.queue ≠ 0) (hzero : c'.queue = 0 → s.left = []) : s'.left = s.left := by
  cases hh : s.handler with
  | some pc =>
    rw [left_of_free ha hd, left_of_free (howner ▸ ha) (howner ▸ hd), freeLeft, freeLeft, hhandler, hh]
    exact handlerLeft_congr hrep hn pc
  | none =>
    rw [left_of_unlocked hw' (howner ▸ ha) (howner ▸ hd) (hhandler.trans hh)]
    split
    next h0 => exact (hzero h0).symm
    · rw [left_of_unlocked hw ha hd hh, if_neg hq, numbersFrom_congr hrep, hn]

lemma perm_finish (l r f : List ℕ) (n : ℕ) : (l ++ r ++ (f ++ [n])).Perm (l ++ (n :: r) ++ f) := by
  rw [append_assoc, append_assoc]
  refine List.Perm.append_left l ?_
  rw [← append_assoc]
  exact perm_append_singleton n (r ++ f)

lemma complete (h : s.Inv) (i : ℕ) : Post (· = notEnabled) Inv (s.complete i) := by
  unfold Processor.complete
  split
  next number hi =>
    have hmem : number ∈ s.tasks := List.mem_of_getElem? hi
    have hlen : (s.tasks.eraseIdx i).length + 1 = s.tasks.length := by
      have := (List.getElem?_eq_some_iff.mp hi).1
      rw [List.length_eraseIdx_of_lt this]
      omega
    have hnot {b : Bool} (himp : b = true → s.handler = none ∧ s.tasks = []) : b = false := by
      refine Bool.eq_false_iff.mpr fun hb => ?_
      rw [(himp hb).2] at hmem
      cases hmem
    have ha : s.owner.isAdding = false := hnot fun hb => h.alone (.inl hb)
    have hd : s.owner.isDiscarding = false := hnot fun hb => h.alone (.inr hb)
    obtain hstop | ⟨c, hc⟩ := h.word
    · rw [(List.append_eq_nil_iff.mp hstop.running).1] at hmem
      cases hmem
    · have hacc : c.accepting = false := hc.accepting.trans ha
      have hqueue := hc.queue
      have hexec := hc.exec
      rw [uncounted_of_free ha, add_zero] at hqueue
      rw [hd] at hexec
      have hexec : c.exec = s.running.length := hexec
      have hrun : s.running.length = s.tasks.length + (s.handler.elim [] HandlerPc.running).length := List.length_append
      rw [onFinish_eq hc.word hacc (by omega) (by omega), ok_bind]
      generalize hc' : ({ c with queue := c.queue - 1, exec := c.exec - 1, queue_lt := _, exec_lt := _ } : Counters) = c'
      have hq' : c'.queue = c.queue - 1 := by rw [← hc']
      have he' : c'.exec = c.exec - 1 := by rw [← hc']
      have hacc' : c'.accepting = c.accepting := by rw [← hc']
      have hlocked' : c'.locked = c.locked := by rw [← hc']
      have hrun' : s.running.Perm (number :: (s.tasks.eraseIdx i ++ s.handler.elim [] HandlerPc.running)) := by
        have hperm : (number :: s.tasks.eraseIdx i).Perm s.tasks := by
          obtain ⟨hlt, rfl⟩ := List.getElem?_eq_some_iff.mp hi
          exact List.getElem_cons_eraseIdx_perm hlt
        exact (hperm.symm.append_right _)
      have hleft' : left { s with word := c'.word, tasks := s.tasks.eraseIdx i, finished := s.finished ++ [number] } =
          s.left := by
        refine left_of_finished rfl rfl rfl rfl ha hd hc.word rfl (by omega) fun hzero => ?_
        -- the last one: nothing was left
        exact List.length_eq_zero_iff.mp (by omega)
      refine of_ok ?_ (.inr ⟨c', rfl, hacc'.trans hc.accepting, hlocked'.trans hc.locked, ?_, ?_⟩) h.added_le
        (alone_of_free ha hd) h.ok h.processed_le h.inRange
      · rw [hleft']
        refine List.Perm.trans ?_ h.perm
        refine (perm_finish s.left (s.tasks.eraseIdx i ++ s.handler.elim [] HandlerPc.running) s.finished number).trans ?_
        exact (hrun'.symm.append_left s.left).append_right s.finished
      · rw [hleft']
        show c'.queue + s.owner.uncounted =
          s.left.length + (s.tasks.eraseIdx i ++ s.handler.elim [] HandlerPc.running).length
        rw [List.length_append, uncounted_of_free ha]
        omega
      · show c'.exec = if s.owner.isDiscarding then _ else (s.tasks.eraseIdx i ++ s.handler.elim [] HandlerPc.running).length
        rw [hd, if_neg Bool.false_ne_true, List.length_append]
        omega
  · rfl

lemma stop (h : s.Inv) (hcond : stopWaits s.word = true ∨ hasStatePendingPduInQueue s.word = false) :
    Inv (if stopWaits s.word then s else { s with word := stopped }) := by
  split
  · exact h
  next hwait =>
    have hqueue := hcond.resolve_left hwait
    obtain hstop | ⟨c, hc⟩ := h.word
    · rw [hstop.word] at hqueue
      exact absurd hqueue (by decide)
    · have hw := hc.word
      rw [hw] at hwait hqueue
      simp only [stopWaits, isStateAcceptingPdu_word, Counters.hasStatePendingPduInExec_word,
        isStateLocked_word, Bool.or_eq_true, decide_eq_true_eq, not_or, not_not, Bool.not_eq_true] at hwait
      simp only [hasStatePendingPduInQueue_word, decide_eq_false_iff_not, not_not] at hqueue
      obtain ⟨⟨hacc, -⟩, hlocked⟩ := hwait
      have ha : s.owner.isAdding = false := hc.accepting.symm.trans hacc
      obtain ⟨hhandler, hd⟩ := hc.unlocked hlocked
      have hq := hc.queue
      rw [hqueue, uncounted_of_free ha] at hq
      have hleft : s.left = [] := length_eq_zero_iff.mp (by omega)
      have hrun : s.running = [] := length_eq_zero_iff.mp (by omega)
      have hleft' : left { s with word := stopped } = [] := left_of_idle stopped ha hd hhandler rfl (by decide)
      refine { h with perm := ?_, word := .inl ⟨rfl, hleft', hrun, hhandler, ha, hd⟩ }
      have hperm := h.perm
      rw [hleft] at hperm
      rw [hleft']
      exact hperm

lemma congr (h : s.Inv) (callers gridRefCounter : ℕ) :
    Inv { s with callers := callers, gridRefCounter := gridRefCounter } := by
  refine { h with word := ?_ }
  obtain hstop | ⟨c, hc⟩ := h.word
  · exact .inl { hstop with }
  · exact .inr ⟨c, hc.word, hc.accepting, hc.locked, hc.queue, hc.exec⟩

lemma ownerStep (h : s.Inv) : Post (· = notEnabled) Inv (s.ownerStep s.owner) := by
  cases ho : s.owner with
  | none => rfl
  | loaded state n => rfl
  | adding => rfl
  | discardFetch symbol kind => exact h.discardFetch ho
  | discardPdus symbol kind rest =>
    cases rest with
    | nil => exact h.discardNext ho
    | cons entry rest => exact h.discardPdu ho
  | discardEnd => exact h.finishDiscardSlot ho
  | reserving => exact h.reserveOnNewSlot ho
  | clearing => exact h.clear ho
  | pushed => exact h.incrementPendingPduCount ho
  | finishing =>
    have hfree : s.owner.isAdding = false ∧ s.owner.isDiscarding = false := by
      rw [ho]
      exact ⟨rfl, rfl⟩
    exact (h.setOwner hfree.1 hfree.2 (show (OwnerPc.none : OwnerPc Config).isAdding = false from rfl) rfl trivial).congr
      s.callers 1

lemma handlerStep (h : s.Inv) (hh : s.handler = some pc) : Post (· = notEnabled) Inv (s.handlerStep pc) := by
  cases pc with
  | fetch last kind => exact h.handlerFetch hh
  | pdus last kind rest =>
    cases rest with
    | nil => exact h.handlerNext hh
    | cons entry rest => exact h.onCreatePduTask hh
  | created last kind entry rest => rfl
  | dropping last kind entry rest => exact h.handlerDrop hh
  | unlock => exact h.finishHandleRxSymbol hh

end Inv

end Processor

/-! ### PDUs are added -/

section Add

variable [DecidableEq Config]

namespace Processor

variable {s : Processor Config}

lemma numbers_addToCollection {commonConfig : Config} {entries : List (Entry Config)} {r : List (Entry Config) × ℕ}
    (h : addToCollection commonConfig entries = some r) : r.1.map Entry.number = entries.map Entry.number := by
  induction entries generalizing r with
  | nil => cases h
  | cons entry rest ih =>
    unfold addToCollection at h
    split at h
    · cases h
      rfl
    · obtain ⟨r', hr', rfl⟩ := Option.map_eq_some_iff.mp h
      rw [map_cons, map_cons, ih hr']

lemma collectionOf_eq_some {pdu : UplinkPdu Config} {r : List (Entry Config) × ℕ} (h : s.collectionOf pdu = some r) :
    addToCollection pdu.commonConfig (s.repository .pucchF1 pdu.endSymbolIndex) = some r := by
  unfold collectionOf at h
  split at h
  · exact h
  · cases h

omit [DecidableEq Config] in
lemma numbersFrom_pushBack (pdu : UplinkPdu Config) (hsym : pdu.endSymbolIndex < maxNsymbPerSlot) :
    ((s.pushBack pdu).numbersFrom 0).Perm (s.numbersFrom 0 ++ [s.added]) := by
  have hnumbers (kind : PduKind) (symbol : ℕ) : (s.pushBack pdu).numbers kind symbol =
      s.numbers kind symbol ++ if kind = pdu.kind ∧ symbol = pdu.endSymbolIndex then [s.added] else [] := by
    show List.map Entry.number (if kind = pdu.kind ∧ symbol = pdu.endSymbolIndex then _ else _) = _
    split
    · rw [map_append]
      rfl
    · rw [append_nil]
      rfl
  have hall (s : Processor Config) (symbol : ℕ) : s.numbers .pucch symbol ++ s.numbersAfter .pucch symbol =
      [PduKind.pucch, .pucchF1, .pusch, .srs].flatMap fun kind => s.numbers kind symbol := rfl
  unfold numbersFrom
  simp only [hall]
  refine flatMap_perm_insert nodup_range' (k := pdu.endSymbolIndex) ?_ ?_ ?_
  · rw [mem_range'_1]
    omega
  · refine flatMap_perm_insert (by decide) (k := pdu.kind) ?_ ?_ ?_
    · cases pdu.kind <;> decide
    · rw [hnumbers, if_pos ⟨rfl, rfl⟩]
    · intro kind hkind
      rw [hnumbers, if_neg fun h => hkind h.1, append_nil]
  · intro symbol hsymbol
    congr 1
    funext kind
    rw [hnumbers, if_neg fun h => hsymbol h.2, append_nil]

namespace Inv

lemma addPdu (h : s.Inv) (ho : s.owner = .adding) {pdu : UplinkPdu Config} (hsym : pdu.endSymbolIndex < maxNsymbPerSlot)
    (hadded : s.added < 4095) (hroom : s.hasRoom pdu = true) : Post (· = notEnabled) Inv (s.addPdu pdu) := by
  obtain ⟨c, hc, hacc, hlocked, hhandler, htasks, hrun, hexec, hleft⟩ := h.of_adding (.inl ho)
  have hqueue := hc.queue
  rw [ho, hrun] at hqueue
  have hqueue : c.queue = s.left.length := hqueue
  unfold Processor.addPdu
  rw [if_pos hsym, if_pos hroom]
  split
  next collections nofUes hcoll =>
    -- the collection has its number already
    have hrep : left { s with repository := fun kind symbol =>
                  if kind = .pucchF1 ∧ symbol = pdu.endSymbolIndex then collections else s.repository kind symbol } =
        s.left := by
      unfold left
      rw [ho]
      unfold numbersFrom numbersAfter numbers
      have hnumbers (kind : PduKind) (symbol : ℕ) :
          (if kind = .pucchF1 ∧ symbol = pdu.endSymbolIndex then collections else s.repository kind symbol).map
            Entry.number = (s.repository kind symbol).map Entry.number := by
        split
        next heq =>
          obtain ⟨rfl, rfl⟩ := heq
          exact numbers_addToCollection (collectionOf_eq_some hcoll)
        · rfl
      simp [hnumbers]
    refine { h with perm := ?_, word := .inr ⟨c, hc.word, hc.accepting, hc.locked, ?_, ?_⟩ }
    · rw [hrep]
      exact h.perm
    · rw [hrep]
      exact hc.queue
    · rw [hrep]
      exact hc.exec
  · have hperm := numbersFrom_pushBack (s := s) pdu hsym
    have hlen := hperm.length_eq
    rw [length_append, length_singleton, ← hleft] at hlen
    refine of_ok ?_ (.inr ⟨c, .of_alone hc.word hhandler hrun hacc hlocked ?_ hexec⟩) hadded (fun _ => ⟨hhandler, htasks⟩)
      (h.cleared (.inl ho)) h.processed_le h.inRange
    · show ((s.pushBack pdu).numbersFrom 0 ++ s.running ++ s.finished).Perm (range (s.added + 1))
      have hold := h.perm
      rw [hleft, hrun, append_nil] at hold
      rw [hrun, append_nil, range_succ]
      refine (hperm.append_right _).trans ?_
      rw [append_assoc]
      refine ((perm_append_comm).append_left _).trans ?_
      rw [← append_assoc]
      exact hold.append_right _
    · show c.queue + 1 = ((s.pushBack pdu).numbersFrom 0).length
      rw [hlen, hqueue]

/-- **Every step** under the condition keeps the invariant, and no assertion fails. -/
theorem step (h : s.Inv) {a : Action Config} (ha : Cond s a) : Post (· = notEnabled) Inv (s.step a) := by
  unfold Processor.step
  cases a with
  | getPduSlotRepository =>
    dsimp only
    split
    next ho =>
      unfold getPduSlotRepository
      split
      · exact h
      · exact h.evaluateDiscard (by rw [ho]; rfl) (by rw [ho]; rfl) _
    · rfl
  | exchangeDiscard =>
    dsimp only
    split
    next state n ho =>
      have hcond : LoadedQueue s s.owner := ha
      rw [ho] at hcond
      exact h.exchangeDiscard ho hcond
    · rfl
  | owner => exact h.ownerStep
  | addPdu pdu =>
    dsimp only
    split
    next ho => exact h.addPdu ho ha.1 ha.2.1 ha.2.2
    · rfl
  | finishAddingPdus =>
    dsimp only
    split
    next ho => exact h.finishAddingPdus ho
    · rfl
  | copyGrid =>
    dsimp only
    split
    · exact h.congr s.callers (s.gridRefCounter + 1)
    · rfl
  | releaseGrid =>
    dsimp only
    split
    · exact h.congr s.callers (s.gridRefCounter - 1)
    · rfl
  | getSlotProcessor =>
    show Inv (if isReadyToProcess s.word then { s with callers := s.callers + 1 } else s)
    split
    · exact h.congr (s.callers + 1) s.gridRefCounter
    · exact h
  | handleRxSymbol endSymbolIndex =>
    dsimp only
    split
    · exact (h.congr (s.callers - 1) s.gridRefCounter).handleRxSymbol endSymbolIndex ha
    · rfl
  | handler =>
    dsimp only
    split
    next pc hh => exact h.handlerStep hh
    · rfl
  | enqueue success => exact h.enqueue success
  | complete i => exact h.complete i
  | stop => exact h.stop ha

end Inv

def slotOf (symbols : List ℕ) : List (Action Unit) :=
  [.getPduSlotRepository, .owner, .owner] ++ symbols.flatMap (fun symbol => [.addPdu ⟨.pusch, symbol, ()⟩, .owner]) ++
    [.finishAddingPdus, .owner]

end Processor

end Add

end SrsRan.Phy.Uplink
