import SrsRan.Lib.Run
import Mathlib.Data.Finset.Prod
import Mathlib.Data.Finset.Lattice.Fold

/-!
# PDCCH allocation in a slot

`pdcch_slot_allocator` places the DCIs of a slot on the resource grid; a depth-first search over the candidates of all DCIs
is meant to move earlier DCIs when a new one does not fit.

The search removes nodes from its tree without clearing their CRBs from the grid.
-/

namespace SrsRan.Sched.Pdcch

open Nat
open List (getElem?_append_left getElem?_concat_length length_append length_singleton prefix_append)

/-! ### The allocator -/

structure Candidate where
  ncce : ℕ
  crbs : List ℕ
deriving DecidableEq

/-- A resource block of the grid: subcarrier spacing, symbol and CRB. -/
abbrev Cell := ℕ × ℕ × ℕ

abbrev Grid := Finset Cell

/-- The spacing, the duration of the CORESET and the candidates. -/
structure Request where
  scs : ℕ
  duration : ℕ
  candidates : List Candidate
  duration_pos : 0 < duration
  crbs_ne_nil : ∀ c ∈ candidates, c.crbs ≠ []

/-- The address of a DCI context: an element of `dl_pdcchs` or `ul_pdcchs`. -/
structure ContextPtr where
  isDl : Bool
  index : ℕ
deriving DecidableEq

structure AllocRecord extends Request where
  pdcchCtx : ContextPtr

/-- A node of the search tree. -/
structure TreeNode where
  dciIterIndex : ℕ
  ncce : ℕ
  recordIndex : ℕ
deriving DecidableEq

/-- The resource blocks of a candidate: its CRBs in the symbols of the CORESET. -/
def Request.cells (r : Request) (c : Candidate) : Grid :=
  (Finset.range r.duration ×ˢ c.crbs.toFinset).image fun x => (r.scs, x.1, x.2)

/-- The grid, the `ncce` of the DCIs, and the state of the allocator. -/
structure PdcchSlot where
  grid : Grid
  dlPdcchs : List ℕ := []
  ulPdcchs : List ℕ := []
  records : List AllocRecord := []
  dfsTree : List TreeNode := []

/-- The first candidate that does not collide. -/
def firstFree (grid : Grid) (r : Request) : List Candidate → (i : ℕ) → Option (ℕ × Candidate)
  | [], _ => none
  | c :: cs, i => if Disjoint grid (r.cells c) then some (i, c) else firstFree grid r cs (i + 1)

def allocDfsNode (grid : Grid) (tree : List TreeNode) (r : Request) (dciIterIndex : ℕ) : Option (Grid × List TreeNode) :=
  (firstFree grid r (r.candidates.drop dciIterIndex) dciIterIndex).map fun (i, c) =>
    (grid ∪ r.cells c, tree ++ [⟨i, c.ncce, tree.length⟩])

def refill (grid : Grid) (tree : List TreeNode) (startChildIdx : ℕ) : List AllocRecord → Grid × List TreeNode
  | [] => (grid, tree)
  | r :: rs =>
    match allocDfsNode grid tree r.toRequest startChildIdx with
    | some (grid, tree) => refill grid tree 0 rs
    | none => (grid, tree)

/-- `get_next_dfs`, for at most the given number of iterations. -/
def getNextDfs (records : List AllocRecord) : (fuel : ℕ) → Grid → List TreeNode → Option (Grid × List TreeNode × Bool)
  | 0, _, _ => none
  | fuel + 1, grid, tree =>
    match tree.getLast? with
    | none => some (grid, tree, false)
    | some last =>
      let (grid, tree) := refill grid tree.dropLast (last.dciIterIndex + 1) (records.drop tree.dropLast.length)
      if tree.length < records.length then getNextDfs records fuel grid tree else some (grid, tree, true)

variable (records : List AllocRecord)

/-- Fuel for the search. -/
def searchBound : ℕ := (records.map fun r => r.candidates.length + 1).prod

structure SearchResult where
  found : Bool
  grid : Grid
  dfsTree : List TreeNode
  savedDfsTree : List TreeNode

/-- The loop of `alloc_pdcch`, for at most the given number of iterations. -/
def searchLoop (records : List AllocRecord) (record : Request) :
    (fuel : ℕ) → Grid → List TreeNode → List TreeNode → Option SearchResult
  | 0, _, _, _ => none
  | fuel + 1, grid, tree, saved =>
    match allocDfsNode grid tree record 0 with
    | some (grid, tree) => some ⟨true, grid, tree, saved⟩
    | none =>
      let saved := if saved.isEmpty then tree else saved
      match getNextDfs records (searchBound records) grid tree with
      | none => none
      | some (grid, tree, true) => searchLoop records record fuel grid tree saved
      | some (grid, tree, false) => some ⟨false, grid, tree, saved⟩

namespace PdcchSlot

variable (s : PdcchSlot)

def ncces (isDl : Bool) : List ℕ := if isDl then s.dlPdcchs else s.ulPdcchs

def setNcces (isDl : Bool) (l : List ℕ) : PdcchSlot :=
  if isDl then { s with dlPdcchs := l } else { s with ulPdcchs := l }

def setNcce (p : ContextPtr) (ncce : ℕ) : PdcchSlot := s.setNcces p.isDl ((s.ncces p.isDl).set p.index ncce)

def updateNcce (node : TreeNode) : PdcchSlot :=
  match s.records[node.recordIndex]? with
  | some r => s.setNcce r.pdcchCtx node.ncce
  | none => s

/-- `alloc_pdcch`; the search does not run out of iterations. -/
def allocPdcch (record : AllocRecord) : Option (PdcchSlot × Bool) :=
  match searchLoop s.records record.toRequest (searchBound s.records) s.grid s.dfsTree [] with
  | none => none
  | some res =>
    if res.found then
      let s := { s with grid := res.grid, dfsTree := res.dfsTree }
      let s := s.setNcce record.pdcchCtx ((res.dfsTree.getLast?.map (·.ncce)).getD 0)
      let s := { s with records := s.records ++ [record] }
      some (if res.savedDfsTree.isEmpty then s else res.dfsTree.dropLast.foldl updateNcce s, true)
    else some ({ s with grid := res.grid, dfsTree := res.savedDfsTree }, false)

/-- `alloc_dl_pdcch_helper` and `alloc_ul_pdcch_helper` -/
def allocPdcchHelper (isDl : Bool) (r : Request) : Option (PdcchSlot × Bool) :=
  match (s.setNcces isDl (s.ncces isDl ++ [0])).allocPdcch ⟨r, ⟨isDl, (s.ncces isDl).length⟩⟩ with
  | none => none
  | some (s, true) => some (s, true)
  | some (s, false) => some (s.setNcces isDl (s.ncces isDl).dropLast, false)

/-- What the last DCI occupies. -/
def lastCells : Grid :=
  match s.records.getLast?, s.dfsTree.getLast? with
  | some r, some node => (r.candidates[node.dciIterIndex]?).elim ∅ r.cells
  | _, _ => ∅

def cancelLastPdcch : PdcchSlot × Bool :=
  match s.records.getLast? with
  | none => (s, false)
  | some r =>
    let pop (isDl : Bool) : PdcchSlot × Bool :=
      ({ s.setNcces isDl (s.ncces isDl).dropLast with
          grid := s.grid \ s.lastCells, records := s.records.dropLast, dfsTree := s.dfsTree.dropLast }, true)
    if !s.dlPdcchs.isEmpty && r.pdcchCtx = ⟨true, s.dlPdcchs.length - 1⟩ then pop true
    else if !s.ulPdcchs.isEmpty && r.pdcchCtx = ⟨false, s.ulPdcchs.length - 1⟩ then pop false
    else (s, false)

end PdcchSlot

/-! ### Free candidates -/

section FirstFree

variable {grid grid' : Grid} {r : Request} {cs : List Candidate} {i k : ℕ} {c : Candidate}

lemma firstFree_eq_none : firstFree grid r cs i = none ↔ ∀ c ∈ cs, ¬ Disjoint grid (r.cells c) := by
  induction cs generalizing i with
  | nil => exact ⟨nofun, fun _ => rfl⟩
  | cons c cs ih =>
    unfold firstFree
    split
    next hfree => exact ⟨nofun, fun h => absurd hfree (h c List.mem_cons_self)⟩
    next hcol =>
      rw [ih, List.forall_mem_cons]
      exact ⟨fun h => ⟨hcol, h⟩, fun h => h.2⟩

lemma firstFree_eq_some (h : firstFree grid r cs i = some (k, c)) :
    i ≤ k ∧ cs[k - i]? = some c ∧ Disjoint grid (r.cells c) := by
  induction cs generalizing i with
  | nil => cases h
  | cons c' cs ih =>
    unfold firstFree at h
    split at h
    next hfree =>
      cases h
      exact ⟨le_rfl, by rw [Nat.sub_self]; rfl, hfree⟩
    · obtain ⟨h1, h2, h3⟩ := ih h
      refine ⟨by omega, ?_, h3⟩
      rw [show k - i = (k - (i + 1)) + 1 by omega]
      exact h2

lemma firstFree_mono (hsub : grid ⊆ grid') (h : firstFree grid r cs i = none) : firstFree grid' r cs i = none := by
  rw [firstFree_eq_none] at h ⊢
  exact fun c hc hfree => h c hc (hfree.mono_left hsub)

lemma cells_nonempty (hc : c ∈ r.candidates) : (r.cells c).Nonempty := by
  obtain ⟨crb, hcrb⟩ := List.exists_mem_of_ne_nil _ (r.crbs_ne_nil c hc)
  exact ⟨(r.scs, 0, crb), Finset.mem_image.mpr ⟨(0, crb),
    Finset.mem_product.mpr ⟨Finset.mem_range.mpr r.duration_pos, List.mem_toFinset.mpr hcrb⟩, rfl⟩⟩

lemma ssubset_union_cells (hc : c ∈ r.candidates) (hfree : Disjoint grid (r.cells c)) : grid ⊂ grid ∪ r.cells c := by
  refine Finset.ssubset_iff_subset_ne.mpr ⟨Finset.subset_union_left, fun heq => ?_⟩
  obtain ⟨x, hx⟩ := cells_nonempty hc
  have hmem : x ∈ grid := heq ▸ Finset.mem_union_right _ hx
  exact Finset.disjoint_left.mp hfree hmem hx

end FirstFree

/-! ### The search -/

/-- The nodes stand for candidates of the first records. -/
def Valid (tree : List TreeNode) : Prop :=
  ∀ (j : ℕ) (node : TreeNode), tree[j]? = some node → ∃ r : AllocRecord, records[j]? = some r ∧ node.dciIterIndex < r.candidates.length

/-- Some record has a free candidate after the one of its node. -/
def Alternative (grid : Grid) (tree : List TreeNode) : Prop :=
  ∃ (j : ℕ) (node : TreeNode) (r : AllocRecord), tree[j]? = some node ∧ records[j]? = some r ∧
    ∃ c ∈ r.candidates.drop (node.dciIterIndex + 1), Disjoint grid (r.cells c)

/-- The number of search trees that may follow, at least. -/
def potential : List AllocRecord → List TreeNode → ℕ
  | r :: rs, node :: nodes => (r.candidates.length - node.dciIterIndex) * searchBound rs + potential rs nodes
  | _, _ => 0

section Search

variable {records : List AllocRecord} {grid : Grid} {tree tree' : List TreeNode} {node node' : TreeNode} {r : AllocRecord}

lemma searchBound_cons (r : AllocRecord) (rs : List AllocRecord) :
    searchBound (r :: rs) = (r.candidates.length + 1) * searchBound rs := by
  rw [searchBound, List.map_cons, List.prod_cons, ← searchBound]

lemma potential_lt (records : List AllocRecord) (tree : List TreeNode) : potential records tree < searchBound records := by
  induction records generalizing tree with
  | nil => exact Nat.one_pos
  | cons r rs ih =>
    rw [searchBound_cons]
    cases tree with
    | nil =>
      have := ih []
      exact Nat.mul_pos (succ_pos _) (zero_lt_of_lt this)
    | cons node nodes =>
      rw [potential]
      have h1 := ih nodes
      have h2 : (r.candidates.length - node.dciIterIndex) * searchBound rs ≤ r.candidates.length * searchBound rs :=
        Nat.mul_le_mul_right _ (sub_le _ _)
      rw [Nat.add_one_mul]
      omega

lemma potential_pop (hr : records[tree.length]? = some r) (hlt : node.dciIterIndex < r.candidates.length) :
    potential records tree < potential records (tree ++ [node]) := by
  induction tree generalizing records with
  | nil =>
    cases records with
    | nil => cases hr
    | cons r' rs =>
      cases hr
      have hpos := zero_lt_of_lt (potential_lt rs [])
      exact Nat.add_pos_left (Nat.mul_pos (Nat.sub_pos_of_lt hlt) hpos) _
  | cons n ns ih =>
    cases records with
    | nil => cases hr
    | cons r' rs => exact Nat.add_lt_add_left (ih hr) _

lemma potential_next (hr : records[tree.length]? = some r) (hlt : node.dciIterIndex < r.candidates.length)
    (hnext : node.dciIterIndex < node'.dciIterIndex) :
    potential records (tree ++ node' :: tree') < potential records (tree ++ [node]) := by
  induction tree generalizing records with
  | nil =>
    cases records with
    | nil => cases hr
    | cons r' rs =>
      cases hr
      have h1 := potential_lt rs tree'
      have h2 : (r.candidates.length - node'.dciIterIndex + 1) * searchBound rs ≤
          (r.candidates.length - node.dciIterIndex) * searchBound rs := Nat.mul_le_mul_right _ (by omega)
      rw [Nat.add_one_mul] at h2
      show (r.candidates.length - node'.dciIterIndex) * searchBound rs + potential rs tree' <
        (r.candidates.length - node.dciIterIndex) * searchBound rs + potential rs []
      omega
  | cons n ns ih =>
    cases records with
    | nil => cases hr
    | cons r' rs => exact Nat.add_lt_add_left (ih hr) _

lemma Valid.dropLast (h : Valid records (tree ++ [node])) : Valid records tree := by
  intro j n hn
  refine h j n ?_
  rw [getElem?_append_left (List.getElem?_eq_some_iff.mp hn).1]
  exact hn

lemma Valid.concat (h : Valid records tree) (hr : records[tree.length]? = some r)
    (hlt : node.dciIterIndex < r.candidates.length) : Valid records (tree ++ [node]) := by
  intro j n hn
  rcases Nat.lt_trichotomy j tree.length with hj | rfl | hj
  · rw [getElem?_append_left hj] at hn
    exact h j n hn
  · rw [getElem?_concat_length] at hn
    cases hn
    exact ⟨r, hr, hlt⟩
  · rw [List.getElem?_eq_none (by rw [length_append, length_singleton]; omega)] at hn
    cases hn

lemma Valid.last (h : Valid records (tree ++ [node])) :
    ∃ r, records[tree.length]? = some r ∧ node.dciIterIndex < r.candidates.length :=
  h _ node (getElem?_concat_length ..)

lemma allocDfsNode_eq_none {r : Request} {i : ℕ} :
    allocDfsNode grid tree r i = none ↔ ∀ c ∈ r.candidates.drop i, ¬ Disjoint grid (r.cells c) := by
  rw [allocDfsNode, Option.map_eq_none_iff, firstFree_eq_none]

lemma allocDfsNode_eq_some {r : Request} {i : ℕ} {g : Grid} {t : List TreeNode} (h : allocDfsNode grid tree r i = some (g, t)) :
    ∃ k c, i ≤ k ∧ r.candidates[k]? = some c ∧ Disjoint grid (r.cells c) ∧ g = grid ∪ r.cells c ∧
      t = tree ++ [⟨k, c.ncce, tree.length⟩] := by
  obtain ⟨⟨k, c⟩, hfree, heq⟩ := Option.map_eq_some_iff.mp h
  cases heq
  obtain ⟨h1, h2, h3⟩ := firstFree_eq_some hfree
  refine ⟨k, c, h1, ?_, h3, rfl, rfl⟩
  rw [List.getElem?_drop, Nat.add_sub_cancel' h1] at h2
  exact h2

lemma refill_spec {rs : List AllocRecord} (grid : Grid) (start : ℕ) (hv : Valid records tree) (hrs : records.drop tree.length = rs)
    (hle : tree.length ≤ records.length) :
    ∃ more, (refill grid tree start rs).2 = tree ++ more ∧ Valid records (refill grid tree start rs).2 ∧
      grid ⊆ (refill grid tree start rs).1 ∧ (refill grid tree start rs).2.length ≤ records.length := by
  induction rs generalizing grid tree start with
  | nil => exact ⟨[], (List.append_nil tree).symm, hv, Finset.Subset.refl _, hle⟩
  | cons r rs ih =>
    unfold refill
    have hr : records[tree.length]? = some r := by
      rw [← Nat.add_zero tree.length, ← List.getElem?_drop, hrs]
      rfl
    have hlt : tree.length < records.length := (List.getElem?_eq_some_iff.mp hr).1
    cases halloc : allocDfsNode grid tree r.toRequest start with
    | none => exact ⟨[], (List.append_nil tree).symm, hv, Finset.Subset.refl _, hle⟩
    | some res =>
      obtain ⟨g, t⟩ := res
      obtain ⟨k, c, -, hc, -, rfl, rfl⟩ := allocDfsNode_eq_some halloc
      have hlen : (tree ++ [(⟨k, c.ncce, tree.length⟩ : TreeNode)]).length = tree.length + 1 := length_append
      have hrs' : records.drop (tree ++ [(⟨k, c.ncce, tree.length⟩ : TreeNode)]).length = rs := by
        rw [hlen, ← List.drop_drop, hrs]
        rfl
      obtain ⟨more, h1, h2, h3, h4⟩ := ih (grid ∪ r.cells c) 0 (hv.concat hr (List.getElem?_eq_some_iff.mp hc).1) hrs'
        (by rw [hlen]; exact hlt)
      exact ⟨_ :: more, by rw [h1, List.append_assoc]; rfl, h2, Finset.subset_union_left.trans h3, h4⟩

lemma refill_of_none {start : ℕ} {rs : List AllocRecord} (hrs : rs.head? = some r)
    (hnone : allocDfsNode grid tree r.toRequest start = none) : refill grid tree start rs = (grid, tree) := by
  cases rs with
  | nil => cases hrs
  | cons r' rs =>
    cases hrs
    unfold refill
    rw [hnone]

lemma refill_of_some {start : ℕ} {rs : List AllocRecord} (hv : Valid records tree) (hrs : records.drop tree.length = rs)
    (hr : records[tree.length]? = some r) (hsome : allocDfsNode grid tree r.toRequest start ≠ none) :
    ∃ node' more, (refill grid tree start rs).2 = tree ++ node' :: more ∧ start ≤ node'.dciIterIndex ∧
      grid ⊂ (refill grid tree start rs).1 := by
  have hlt : tree.length < records.length := (List.getElem?_eq_some_iff.mp hr).1
  have hcons : rs = r :: records.drop (tree.length + 1) := by
    rw [← hrs, List.drop_eq_getElem_cons hlt, (List.getElem?_eq_some_iff.mp hr).2]
  obtain ⟨⟨g, t⟩, halloc⟩ := Option.ne_none_iff_exists'.mp hsome
  obtain ⟨k, c, hk, hc, hfree, rfl, rfl⟩ := allocDfsNode_eq_some halloc
  have hlen : (tree ++ [(⟨k, c.ncce, tree.length⟩ : TreeNode)]).length = tree.length + 1 := length_append
  obtain ⟨more, h1, -, h3, -⟩ := refill_spec (grid ∪ r.cells c) 0
    (hv.concat hr (show (⟨k, c.ncce, tree.length⟩ : TreeNode).dciIterIndex < _ from (List.getElem?_eq_some_iff.mp hc).1)) rfl (by rw [hlen]; exact hlt)
  rw [hlen] at h1 h3
  rw [hcons]
  unfold refill
  rw [halloc]
  refine ⟨⟨k, c.ncce, tree.length⟩, more, ?_, hk, ?_⟩
  · rw [h1, List.append_assoc]
    rfl
  · exact (ssubset_union_cells (List.mem_of_getElem? hc) hfree).trans_subset h3

/-- It ends, and the grid grows if some record has an alternative. -/
structure NextDfs (records : List AllocRecord) (grid : Grid) (tree : List TreeNode) (grid' : Grid)
    (tree' : List TreeNode) (found : Bool) : Prop where
  subset : grid ⊆ grid'
  valid : found = true → Valid records tree' ∧ tree'.length ≤ records.length ∧ potential records tree' < potential records tree
  unchanged : ¬ Alternative records grid tree → grid' = grid ∧ found = false
  grown : Alternative records grid tree → grid ⊂ grid'

lemma alternative_concat (hr : records[tree.length]? = some r) :
    Alternative records grid (tree ++ [node]) ↔ Alternative records grid tree ∨
      ∃ c ∈ r.candidates.drop (node.dciIterIndex + 1), Disjoint grid (r.cells c) := by
  constructor
  · rintro ⟨j, n, r', hn, hr', hc⟩
    rcases Nat.lt_trichotomy j tree.length with hj | rfl | hj
    · rw [getElem?_append_left hj] at hn
      exact .inl ⟨j, n, r', hn, hr', hc⟩
    · rw [getElem?_concat_length] at hn
      rw [hr] at hr'
      cases hn
      cases hr'
      exact .inr hc
    · rw [List.getElem?_eq_none (by rw [length_append, length_singleton]; omega)] at hn
      cases hn
  · rintro (⟨j, n, r', hn, hr', hc⟩ | hc)
    · refine ⟨j, n, r', ?_, hr', hc⟩
      rw [getElem?_append_left (List.getElem?_eq_some_iff.mp hn).1]
      exact hn
    · exact ⟨tree.length, node, r, List.getElem?_concat_length .., hr, hc⟩

lemma getNextDfs_spec (grid : Grid) (fuel : ℕ) (hv : Valid records tree) (hle : tree.length ≤ records.length)
    (hfuel : potential records tree < fuel) :
    ∃ grid' tree' found, getNextDfs records fuel grid tree = some (grid', tree', found) ∧
      NextDfs records grid tree grid' tree' found := by
  induction fuel generalizing grid tree with
  | zero => omega
  | succ fuel ih =>
    unfold getNextDfs
    rcases List.eq_nil_or_concat' tree with rfl | ⟨nodes, node, rfl⟩
    · refine ⟨grid, [], false, rfl, Finset.Subset.refl _, nofun, fun _ => ⟨rfl, rfl⟩, ?_⟩
      rintro ⟨j, n, r, hn, -⟩
      cases hn
    · obtain ⟨r, hr, hlt⟩ := hv.last
      have hv' := hv.dropLast
      have hlen : nodes.length < records.length := (List.getElem?_eq_some_iff.mp hr).1
      rw [List.getLast?_concat, List.dropLast_concat]
      simp only
      obtain ⟨more, hmore, hvalid, hsub, hbound⟩ := refill_spec grid (node.dciIterIndex + 1) hv' rfl hlen.le
      cases halloc : allocDfsNode grid nodes r.toRequest (node.dciIterIndex + 1) with
      | none =>
        -- the last record has no alternative: go on with one node less
        have hhead : (records.drop nodes.length).head? = some r := by
          rw [List.head?_drop]
          exact hr
        rw [refill_of_none hhead halloc]
        simp only
        rw [if_pos hlen]
        have hpop := potential_pop hr hlt
        obtain ⟨g', t', found, hcode, hnext⟩ := ih grid hv' hlen.le (by omega)
        have hnoalt : ¬ ∃ c ∈ r.candidates.drop (node.dciIterIndex + 1), Disjoint grid (r.cells c) := by
          rintro ⟨c, hc, hfree⟩
          exact allocDfsNode_eq_none.mp halloc c hc hfree
        refine ⟨g', t', found, hcode, hnext.subset, fun h => ?_, fun h => hnext.unchanged fun ha => ?_, fun h => ?_⟩
        · obtain ⟨h1, h2, h3⟩ := hnext.valid h
          exact ⟨h1, h2, by omega⟩
        · exact h ((alternative_concat hr).mpr (.inl ha))
        · exact hnext.grown (((alternative_concat hr).mp h).resolve_right hnoalt)
      | some res =>
        have hsome : allocDfsNode grid nodes r.toRequest (node.dciIterIndex + 1) ≠ none := by
          rw [halloc]
          exact Option.some_ne_none _
        obtain ⟨node', more', heq, hstart, hgrown⟩ := refill_of_some hv' rfl hr hsome
        have halt : Alternative records grid (nodes ++ [node]) := by
          refine (alternative_concat hr).mpr (.inr ?_)
          by_contra hno
          refine hsome (allocDfsNode_eq_none.mpr fun c hc hfree => hno ⟨c, hc, hfree⟩)
        have hpot : potential records (refill grid nodes (node.dciIterIndex + 1) (records.drop nodes.length)).2 <
            potential records (nodes ++ [node]) := by
          rw [heq]
          exact potential_next hr hlt (by omega)
        split
        · obtain ⟨g', t', found, hcode, hnext⟩ := ih _ hvalid hbound (by omega)
          refine ⟨g', t', found, hcode, hsub.trans hnext.subset, fun h => ?_, fun h => absurd halt h, fun _ => ?_⟩
          · obtain ⟨h1, h2, h3⟩ := hnext.valid h
            exact ⟨h1, h2, by omega⟩
          · exact hgrown.trans_subset hnext.subset
        · exact ⟨_, _, true, rfl, hsub, fun _ => ⟨hvalid, hbound, hpot⟩, fun h => absurd halt h, fun _ => hgrown⟩

/-- **The search of a DCI that does not fit** ends without success. -/
lemma searchLoop_of_none {record : Request} (fuel : ℕ) (saved : List TreeNode) (hv : Valid records tree)
    (hle : tree.length ≤ records.length) (hfuel : potential records tree < fuel)
    (hnone : firstFree grid record record.candidates 0 = none) :
    ∃ grid' tree', searchLoop records record fuel grid tree saved =
        some ⟨false, grid', tree', if saved.isEmpty then tree else saved⟩ ∧
      grid ⊆ grid' ∧ (¬ Alternative records grid tree → grid' = grid) ∧ (Alternative records grid tree → grid ⊂ grid') := by
  induction fuel generalizing grid tree saved with
  | zero => omega
  | succ fuel ih =>
    have halloc : allocDfsNode grid tree record 0 = none := by
      rw [allocDfsNode, List.drop_zero, hnone]
      rfl
    obtain ⟨g, t, found, hcode, hnext⟩ := getNextDfs_spec grid (searchBound records) hv hle (potential_lt _ _)
    unfold searchLoop
    simp only [halloc, hcode]
    cases found with
    | false => exact ⟨g, t, rfl, hnext.subset, fun h => (hnext.unchanged h).1, hnext.grown⟩
    | true =>
      obtain ⟨hv', hle', hpot⟩ := hnext.valid rfl
      -- the grid has only grown, so the new DCI still does not fit
      obtain ⟨g', t', hcode', hsub', -, -⟩ := ih (if saved.isEmpty then tree else saved)
        hv' hle' (by omega) (firstFree_mono hnext.subset hnone)
      have halt : Alternative records grid tree := by
        by_contra hno
        cases (hnext.unchanged hno).2
      have hsaved : (if saved.isEmpty then tree else saved).isEmpty = false := by
        cases hs : saved.isEmpty with
        | false => exact hs
        | true =>
          obtain ⟨j, n, -, hn, -⟩ := halt
          cases tree with
          | nil => cases hn
          | cons x xs => rfl
      simp only [hsaved, Bool.false_eq_true, if_false] at hcode'
      exact ⟨g', t', hcode', hnext.subset.trans hsub', fun h => absurd halt h,
        fun h => (hnext.grown h).trans_subset hsub'⟩

end Search

/-! ### Consistent slots -/

namespace PdcchSlot

/-- The slot after a DCI has been allocated at its candidate with the index `k`. -/
def push (s : PdcchSlot) (isDl : Bool) (r : Request) (k : ℕ) (c : Candidate) : PdcchSlot :=
  { s.setNcces isDl (s.ncces isDl ++ [c.ncce]) with
    grid := s.grid ∪ r.cells c
    records := s.records ++ [⟨r, ⟨isDl, (s.ncces isDl).length⟩⟩]
    dfsTree := s.dfsTree ++ [⟨k, c.ncce, s.dfsTree.length⟩] }

/-- The slots that DCIs have been allocated in, over the other content. -/
inductive Consistent (base : Grid) : PdcchSlot → Prop
  | init : Consistent base { grid := base }
  | push {s : PdcchSlot} (isDl : Bool) (r : Request) {k : ℕ} {c : Candidate} : Consistent base s →
      r.candidates[k]? = some c → Disjoint s.grid (r.cells c) → Consistent base (s.push isDl r k c)

variable {base : Grid} {s : PdcchSlot}

lemma setNcces_grid (s : PdcchSlot) (isDl : Bool) (l : List ℕ) : (s.setNcces isDl l).grid = s.grid := by
  cases isDl <;> rfl

lemma setNcces_records (s : PdcchSlot) (isDl : Bool) (l : List ℕ) : (s.setNcces isDl l).records = s.records := by
  cases isDl <;> rfl

lemma setNcces_dfsTree (s : PdcchSlot) (isDl : Bool) (l : List ℕ) : (s.setNcces isDl l).dfsTree = s.dfsTree := by
  cases isDl <;> rfl

lemma Consistent.length_eq (h : Consistent base s) : s.dfsTree.length = s.records.length := by
  induction h with
  | init => rfl
  | push isDl r _ _ _ ih => simp only [PdcchSlot.push, length_append, length_singleton, ih]

lemma Consistent.valid (h : Consistent base s) : Valid s.records s.dfsTree := by
  induction h with
  | init => exact nofun
  | @push s isDl r k c hs hc _ ih =>
    have hv : Valid (s.records ++ [⟨r, ⟨isDl, (s.ncces isDl).length⟩⟩]) s.dfsTree := by
      intro j n hn
      obtain ⟨r', hr', hlt⟩ := ih j n hn
      refine ⟨r', ?_, hlt⟩
      rw [getElem?_append_left (List.getElem?_eq_some_iff.mp hr').1]
      exact hr'
    refine hv.concat (r := ⟨r, ⟨isDl, (s.ncces isDl).length⟩⟩) ?_ (List.getElem?_eq_some_iff.mp hc).1
    rw [hs.length_eq]
    exact getElem?_concat_length ..

/-- **A DCI that fits** is allocated at its first free candidate. -/
lemma allocPdcchHelper_of_some (s : PdcchSlot) (isDl : Bool) {r : Request} {k : ℕ} {c : Candidate}
    (hfree : firstFree s.grid r r.candidates 0 = some (k, c)) :
    s.allocPdcchHelper isDl r = some (s.push isDl r k c, true) := by
  have halloc : allocDfsNode s.grid s.dfsTree r 0 =
      some (s.grid ∪ r.cells c, s.dfsTree ++ [⟨k, c.ncce, s.dfsTree.length⟩]) := by
    rw [allocDfsNode, List.drop_zero, hfree]
    rfl
  obtain ⟨fuel, hfuel⟩ : ∃ fuel, searchBound s.records = fuel + 1 :=
    exists_eq_succ_of_ne_zero (Nat.pos_iff_ne_zero.mp (zero_lt_of_lt (potential_lt s.records [])))
  have hsearch : searchLoop s.records r (searchBound s.records) s.grid s.dfsTree [] =
      some ⟨true, s.grid ∪ r.cells c, s.dfsTree ++ [⟨k, c.ncce, s.dfsTree.length⟩], []⟩ := by
    rw [hfuel, searchLoop, halloc]
  simp only [allocPdcchHelper, allocPdcch, setNcces_grid, setNcces_records, setNcces_dfsTree, hsearch]
  cases isDl <;> simp [setNcce, setNcces, ncces, push]

/-- **A DCI that does not fit** leaves everything but the grid as it was. -/
lemma Consistent.allocPdcchHelper_of_none (h : Consistent base s) (isDl : Bool) {r : Request}
    (hnone : firstFree s.grid r r.candidates 0 = none) :
    ∃ g, s.allocPdcchHelper isDl r = some ({ s with grid := g }, false) ∧
      (¬ Alternative s.records s.grid s.dfsTree → g = s.grid) ∧ (Alternative s.records s.grid s.dfsTree → s.grid ⊂ g) := by
  obtain ⟨g, t, hsearch, -, hsame, hgrown⟩ := searchLoop_of_none (searchBound s.records) [] h.valid
    h.length_eq.le (potential_lt _ _) hnone
  refine ⟨g, ?_, hsame, hgrown⟩
  simp only [allocPdcchHelper, allocPdcch, setNcces_grid, setNcces_records, setNcces_dfsTree, hsearch]
  cases isDl <;> simp [setNcces, ncces]

/-- **Cancelling the last DCI** takes it back. -/
lemma cancelLastPdcch_push (s : PdcchSlot) (isDl : Bool) {r : Request} {k : ℕ} {c : Candidate}
    (hc : r.candidates[k]? = some c) (hfree : Disjoint s.grid (r.cells c)) :
    (s.push isDl r k c).cancelLastPdcch = (s, true) := by
  have hgrid : (s.grid ∪ r.cells c) \ r.cells c = s.grid := Finset.union_sdiff_cancel_right hfree
  cases isDl <;> simp [cancelLastPdcch, push, setNcces, ncces, lastCells, hc, hgrid]

/-! ### The specification -/

/-- The DCIs do not overlap each other or the other content of the grid. -/
def Free (base : Grid) (dcis : List (Request × Candidate)) : Prop :=
  (dcis.map fun x => x.1.cells x.2).Pairwise Disjoint ∧ ∀ x ∈ dcis, Disjoint base (x.1.cells x.2)

/-- Each request can have one of its candidates without overlap. -/
def FreeChoice (base : Grid) (requests : List Request) : Prop :=
  ∃ chosen : List Candidate, List.Forall₂ (fun r c => c ∈ r.candidates) requests chosen ∧ Free base (requests.zip chosen)

def requests (s : PdcchSlot) : List Request := s.records.map (·.toRequest)

/-- The PDCCH part of the grid is the disjoint union of the recorded DCIs. -/
def Occupies (base : Grid) (s : PdcchSlot) : Prop :=
  ∃ chosen : List Candidate,
    List.Forall₂ (fun (r : AllocRecord) c => c ∈ r.candidates ∧ (s.ncces r.pdcchCtx.isDl)[r.pdcchCtx.index]? = some c.ncce)
      s.records chosen ∧
    Free base (s.requests.zip chosen) ∧
    ∀ x, x ∈ s.grid ↔ x ∈ base ∨ ∃ dci ∈ s.requests.zip chosen, x ∈ dci.1.cells dci.2

/-- What is expected of an allocation. -/
structure AllocOk (base : Grid) (s : PdcchSlot) (r : Request) (s' : PdcchSlot) (ok : Bool) : Prop where
  occupies : Occupies base s'
  undo : ok = false → s'.grid = s.grid ∧ s'.records = s.records ∧ s'.dlPdcchs = s.dlPdcchs ∧ s'.ulPdcchs = s.ulPdcchs
  complete : FreeChoice base (s.requests ++ [r]) → ok = true

/-- The calls of a slot. -/
inductive Call
  | alloc (isDl : Bool) (r : Request)
  | cancelLast

def step (s : PdcchSlot) : Call → PdcchSlot
  | .alloc isDl r => ((s.allocPdcchHelper isDl r).map (·.1)).getD s
  | .cancelLast => s.cancelLastPdcch.1

def run (base : Grid) (calls : List Call) : PdcchSlot := calls.foldl step { grid := base }

/-- What is expected of a call. -/
def CallOk (base : Grid) (s : PdcchSlot) : Call → Prop
  | .alloc isDl r => ∃ s' ok, s.allocPdcchHelper isDl r = some (s', ok) ∧ AllocOk base s r s' ok
  | .cancelLast => Occupies base s.cancelLastPdcch.1

/-- One of the candidates is free. -/
def Fits (s : PdcchSlot) (r : Request) : Prop := ∃ c ∈ r.candidates, Disjoint s.grid (r.cells c)

/-- The new DCI fits, or fits nowhere and no earlier DCI could be moved. -/
def Handled (base : Grid) (s : PdcchSlot) : Call → Prop
  | .alloc _ r => s.Fits r ∨ (¬ Alternative s.records s.grid s.dfsTree ∧ ¬ FreeChoice base (s.requests ++ [r]))
  | .cancelLast => True

/-! ### Runs -/

lemma ncces_push_of_some (isDl isDl' : Bool) {r : Request} {k i n : ℕ} {c : Candidate} (h : (s.ncces isDl')[i]? = some n) :
    ((s.push isDl r k c).ncces isDl')[i]? = some n := by
  have hncces : (s.push isDl r k c).ncces isDl' = s.ncces isDl' ++ if isDl = isDl' then [c.ncce] else [] := by
    cases isDl <;> cases isDl' <;> simp [push, setNcces, ncces]
  rw [hncces, getElem?_append_left (List.getElem?_eq_some_iff.mp h).1]
  exact h

lemma Consistent.occupies (h : Consistent base s) : Occupies base s := by
  induction h with
  | init => exact ⟨[], .nil, ⟨.nil, nofun⟩, fun x => (by simp [requests])⟩
  | @push s isDl r k c hs hc hfree ih =>
    obtain ⟨chosen, hall, ⟨hpair, hbase⟩, hgrid⟩ := ih
    have hzip : (s.push isDl r k c).requests.zip (chosen ++ [c]) = s.requests.zip chosen ++ [(r, c)] := by
      have hlen : s.requests.length = chosen.length := by rw [requests, List.length_map, hall.length_eq]
      have hreq : (s.push isDl r k c).requests = s.requests ++ [r] := by simp [requests, PdcchSlot.push]
      rw [hreq, List.zip_append hlen]
      rfl
    -- the new DCI is disjoint from the grid, which contains all others
    have hnew (x : Request × Candidate) (hx : x ∈ s.requests.zip chosen) : Disjoint (x.1.cells x.2) (r.cells c) :=
      hfree.mono_left fun y hy => (hgrid y).mpr (.inr ⟨x, hx, hy⟩)
    refine ⟨chosen ++ [c], ?_, ⟨?_, ?_⟩, fun x => ?_⟩
    · refine List.rel_append (hall.imp fun r' c' h' => ⟨h'.1, ncces_push_of_some isDl _ h'.2⟩) (.cons ⟨?_, ?_⟩ .nil)
      · exact List.mem_of_getElem? hc
      · cases isDl <;> simp [PdcchSlot.push, setNcces, ncces]
    · rw [hzip, List.map_append, List.pairwise_append]
      refine ⟨hpair, List.pairwise_singleton _ _, fun a ha b hb => ?_⟩
      obtain ⟨x, hx, rfl⟩ := List.mem_map.mp ha
      rw [List.map_singleton, List.mem_singleton] at hb
      rw [hb]
      exact hnew x hx
    · rw [hzip]
      intro x hx
      rcases List.mem_append.mp hx with hx | hx
      · exact hbase x hx
      · rw [List.mem_singleton.mp hx]
        exact hfree.mono_left fun y hy => (hgrid y).mpr (.inl hy)
    · rw [hzip]
      have hx : x ∈ (s.push isDl r k c).grid ↔ x ∈ s.grid ∨ x ∈ r.cells c := Finset.mem_union
      rw [hx, hgrid x]
      simp [or_and_right, exists_or, or_assoc]

lemma fits_iff {r : Request} : s.Fits r ↔ firstFree s.grid r r.candidates 0 ≠ none := by
  rw [Ne, firstFree_eq_none, Fits]
  push Not
  rfl

/-- **One call** from a consistent slot. -/
lemma Consistent.step (h : Consistent base s) (call : Call) :
    (CallOk base s call ↔ Handled base s call) ∧ (Handled base s call → Consistent base (s.step call)) := by
  cases call with
  | cancelLast =>
    cases h with
    | init => exact ⟨iff_of_true Consistent.init.occupies trivial, fun _ => .init⟩
    | @push s isDl r k c hs hc hfree =>
      have hcode := cancelLastPdcch_push s isDl hc hfree
      simp only [CallOk, step, hcode]
      exact ⟨iff_of_true hs.occupies trivial, fun _ => hs⟩
  | alloc isDl r =>
    cases hfirst : firstFree s.grid r r.candidates 0 with
    | some kc =>
      obtain ⟨k, c⟩ := kc
      have hcode := allocPdcchHelper_of_some s isDl hfirst
      obtain ⟨-, hc, hfree⟩ := firstFree_eq_some hfirst
      have hs' : Consistent base (s.push isDl r k c) := .push isDl r h hc hfree
      have hfits : s.Fits r := fits_iff.mpr (by rw [hfirst]; exact Option.some_ne_none _)
      refine ⟨iff_of_true ⟨_, _, hcode, hs'.occupies, nofun, fun _ => rfl⟩ (.inl hfits), fun _ => ?_⟩
      simp only [PdcchSlot.step, hcode, Option.map_some, Option.getD_some]
      exact hs'
    | none =>
      obtain ⟨g, hcode, hsame, hgrown⟩ := h.allocPdcchHelper_of_none isDl hfirst
      have hnot : ¬ s.Fits r := fun hfits => fits_iff.mp hfits hfirst
      refine ⟨⟨?_, ?_⟩, ?_⟩
      · rintro ⟨s', ok, hcode', hok⟩
        rw [hcode] at hcode'
        cases hcode'
        refine .inr ⟨fun halt => ?_, fun hchoice => ?_⟩
        · have heq : g = s.grid := (hok.undo rfl).1
          exact (hgrown halt).ne heq.symm
        · cases hok.complete hchoice
      · rintro (hfits | ⟨hnoalt, hnochoice⟩)
        · exact absurd hfits hnot
        · rw [hsame hnoalt] at hcode
          exact ⟨s, false, hcode, h.occupies, fun _ => ⟨rfl, rfl, rfl, rfl⟩, fun hchoice => absurd hchoice hnochoice⟩
      · rintro (hfits | ⟨hnoalt, -⟩)
        · exact absurd hfits hnot
        · rw [hsame hnoalt] at hcode
          simp only [PdcchSlot.step, hcode, Option.map_some, Option.getD_some]
          exact h

lemma run_concat (base : Grid) (calls : List Call) (call : Call) :
    run base (calls ++ [call]) = (run base calls).step call := by
  rw [run, List.foldl_append]
  rfl

lemma consistent_run (base : Grid) (calls : List Call)
    (h : ∀ pre call, pre ++ [call] <+: calls → Handled base (run base pre) call) : Consistent base (run base calls) := by
  induction calls using List.reverseRecOn with
  | nil => exact .init
  | append_singleton calls call ih =>
    rw [run_concat]
    refine ((ih fun pre c hpre => h pre c (hpre.trans (prefix_append _ _))).step call).2 ?_
    exact h calls call (List.prefix_refl _)

/-- **PDCCH allocation** is right iff each new DCI fits without moving others, or fits nowhere and none could be moved. -/
theorem pdcch_allocation_iff (base : Grid) (calls : List Call) :
    (∀ pre call, pre ++ [call] <+: calls → CallOk base (run base pre) call) ↔
      ∀ pre call, pre ++ [call] <+: calls → Handled base (run base pre) call := by
  constructor
  · intro hok pre
    -- the calls before one that is handled were handled, by induction on their number
    induction hn : pre.length using Nat.strongRecOn generalizing pre with
    | _ n ih =>
      intro call hpre
      have hcons : Consistent base (run base pre) := by
        refine consistent_run base pre fun pre' call' hpre' => ?_
        have hlen : pre'.length < n := by
          have := hpre'.length_le
          rw [length_append, length_singleton] at this
          omega
        exact ih _ hlen pre' rfl call' (hpre'.trans ((prefix_append _ _).trans hpre))
      exact (hcons.step call).1.mp (hok pre call hpre)
  · intro hhandled pre call hpre
    have hcons : Consistent base (run base pre) :=
      consistent_run base pre fun pre' call' hpre' => hhandled pre' call' (hpre'.trans ((prefix_append _ _).trans hpre))
    exact (hcons.step call).1.mpr (hhandled pre call hpre)

/-- Two candidates on the CRBs 0 and 1. -/
def movableDci : Request where
  scs := 0
  duration := 1
  candidates := [⟨0, [0]⟩, ⟨1, [1]⟩]
  duration_pos := by decide
  crbs_ne_nil := by decide

def fixedDci : Request where
  scs := 0
  duration := 1
  candidates := [⟨0, [0]⟩]
  duration_pos := by decide
  crbs_ne_nil := by decide

/-- The second DCI is refused although the first one could move, and the CRB to which the search has moved it stays
occupied. -/
theorem refused_and_leaked : let s := run ∅ [.alloc true movableDci, .alloc true fixedDci]
    s.dlPdcchs = [0] ∧ s.grid = {(0, 0, 0), (0, 0, 1)} ∧ FreeChoice ∅ [movableDci, fixedDci] := by
  refine ⟨by decide +kernel, by decide +kernel, [⟨1, [1]⟩, ⟨0, [0]⟩], ?_, ?_, ?_⟩
  · exact .cons (by decide) (.cons (by decide) .nil)
  · decide +kernel
  · exact fun x _ => Finset.disjoint_empty_left _

end PdcchSlot

end SrsRan.Sched.Pdcch
