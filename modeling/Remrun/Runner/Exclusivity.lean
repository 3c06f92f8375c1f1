import Mathlib.Logic.Relation
import Remrun.Lib.Transition
import Remrun.Runner.Resources

/-!
# Exclusivity of the target resource ledger

Every operation of the ledger is a chain of four kinds of writes: an allocation gives up
its keys for good, an allocation that keeps them changes in place, a reservation is added,
a policy is installed. The invariant and the history of each allocation are read off the
chain.
-/

namespace Remrun.Runner

open Relational
set_option autoImplicit false

/-- The allocation belongs to a running owner. -/
def Allocation.Held (a : Allocation) : Prop := a.state = .claimed ∨ a.state = .quarantined

theorem Allocation.Held.live {a : Allocation} (h : a.Held) : a.state.live = true := by
  rcases h with h | h <;> simp [h, AllocationState.live]

/-- The credential is that of the allocation: its id, its token and its fence. -/
structure ResourceAuth.Proves (P : LedgerPrims) (body : ResourceAuth) (a : Allocation) : Prop where
  name : body.allocationId = .str a.allocationId
  token : ∃ token, body.token = .str token ∧ P.tokenSha256 token = a.tokenSha256
  fence : body.fence = .int a.fence

/-- The step saw the process tree of the held allocation gone, or is its owner's release. -/
inductive Relinquished (P : LedgerPrims) (request : LedgerRequest) (r : LedgerReadings)
    (a : Allocation) : Prop where
  | gone (h : r.cleanup a.allocationId a.owner = .gone)
  | stopped (body : ResourceAuth) (h : request = .cancel body) (auth : body.Proves P a)
      (seen : r.sawGone)
  | released (body : ResourceAuth) (reason : String) (h : request = .ownerRelease body reason)
      (auth : body.Proves P a)

/-- The columns that never change once the row is inserted. -/
def Allocation.identity (a : Allocation) : String × List String × Int × String :=
  (a.allocationId, a.resourceKeys, a.fence, a.tokenSha256)

/-- The elementary writes. -/
inductive LedgerAction (P : LedgerPrims) (request : LedgerRequest) (r : LedgerReadings)
    (db : Ledger) : Ledger → Prop where
  | terminalized (a : Allocation) (state : AllocationState) (reason : String)
      (mem : a ∈ db.allocations) (live : a.state.live = true) (dead : state.live = false)
      (why : a.Held → a.claimBootId = some r.bootId → Relinquished P request r a) :
      LedgerAction P request r db (terminalizeResource db a.allocationId state reason)
  | changed (a : Allocation) (p : Allocation → Bool) (f : Allocation → Allocation)
      (keeps : Table.Keeps Allocation.Clash f) (mem : a ∈ db.allocations)
      (only : ∀ b, p b = true → b.allocationId = a.allocationId)
      (identity : ∀ b, (f b).identity = b.identity)
      (live : a.state.live = true) (live' : (f a).state.live = true)
      (held : a.Held → (f a).Held ∧ (f a).claimBootId = a.claimBootId ∧ (f a).owner = a.owner) :
      LedgerAction P request r db { db with allocations := db.allocations.update p f keeps }
  | reserved (a : Allocation) (allocations : Table Allocation Allocation.Clash)
      (holds : Table Hold Hold.Clash) (live : a.state.live = true)
      (next : a.fence = db.lastFence.getD 0 + 1)
      (known : ∀ key ∈ a.resourceKeys, ∃ policy, db.policy = some policy ∧ key ∈ policy.resources)
      (insert : db.allocations.insert a = some allocations)
      (write : insertHolds a.allocationId a.fence a.resourceKeys db.holds = .ok holds) :
      LedgerAction P request r db
        { db with lastFence := some a.fence, allocations := allocations, holds := holds }
  | installed (policy : ResourcePolicy) (first : db.policy = none ∨ db.holds.rows = []) :
      LedgerAction P request r db { db with policy := some policy }

theorem allocation_eq_of_id {allocations : Table Allocation Allocation.Clash} {a b : Allocation}
    (ha : a ∈ allocations) (hb : b ∈ allocations) (h : a.allocationId = b.allocationId) : a = b :=
  Table.eq_of_clash ha hb (Or.inl h) (Or.inl h.symm)

/-! ## The invariant -/

structure LedgerInv (db : Ledger) : Prop where
  holds : ∀ key id, (∃ h ∈ db.holds, h.resourceKey = key ∧ h.allocationId = id) ↔
    ∃ a ∈ db.allocations, a.allocationId = id ∧ a.state.live = true ∧ key ∈ a.resourceKeys
  policy : ∀ h ∈ db.holds, ∃ policy, db.policy = some policy ∧ h.resourceKey ∈ policy.resources
  bounded : ∀ a ∈ db.allocations, a.fence ≤ db.lastFence.getD 0
  increasing : db.allocations.rows.Pairwise fun a b => a.fence < b.fence

theorem ledgerInv_init : LedgerInv Ledger.init where
  holds := by
    intro key id
    constructor
    · rintro ⟨h, hh, _⟩
      exact absurd hh (Table.not_mem_empty h)
    · rintro ⟨a, ha, _⟩
      exact absurd ha (Table.not_mem_empty a)
  policy := fun h hh => absurd hh (Table.not_mem_empty h)
  bounded := fun a ha => absurd ha (Table.not_mem_empty a)
  increasing := List.Pairwise.nil

section Actions
variable {P : LedgerPrims} {request : LedgerRequest} {r : LedgerReadings} {db db' : Ledger}

theorem ledgerInv_terminalized (h : LedgerInv db) {a : Allocation} {state : AllocationState}
    (reason : String) (dead : state.live = false) :
    LedgerInv (terminalizeResource db a.allocationId state reason) := by
  have hmem : ∀ b, b ∈ (terminalizeResource db a.allocationId state reason).allocations ↔
      ∃ c ∈ db.allocations, Table.setWhere (fun x => x.allocationId = a.allocationId)
        (Allocation.terminal state reason) c = b := by
    intro b
    simp only [terminalizeResource, Table.mem_update]
  constructor
  · intro key id
    constructor
    · rintro ⟨hold, hhold, rfl, rfl⟩
      obtain ⟨hin, hne⟩ := Table.mem_delete.mp hhold
      obtain ⟨c, hc, hid, hlive, hkey⟩ := (h.holds _ _).mp ⟨hold, hin, rfl, rfl⟩
      have hcne : ¬ decide (c.allocationId = a.allocationId) = true := by
        rw [hid]
        exact hne
      refine ⟨c, (hmem c).mpr ⟨c, hc, Table.setWhere_neg hcne⟩, hid, hlive, hkey⟩
    · rintro ⟨b, hb, rfl, hlive, hkey⟩
      obtain ⟨c, hc, rfl⟩ := (hmem b).mp hb
      by_cases heq : c.allocationId = a.allocationId
      · rw [Table.setWhere_pos (by simpa using heq)] at hlive
        exact absurd hlive (by simp [Allocation.terminal, dead])
      · rw [Table.setWhere_neg (by simpa using heq)] at hlive hkey ⊢
        obtain ⟨hold, hin, hk, hid⟩ := (h.holds _ _).mpr ⟨c, hc, rfl, hlive, hkey⟩
        exact ⟨hold, Table.mem_delete.mpr ⟨hin, by simpa [hid] using heq⟩, hk, hid⟩
  · intro hold hhold
    exact h.policy hold (Table.mem_delete.mp hhold).1
  · intro b hb
    obtain ⟨c, hc, rfl⟩ := (hmem b).mp hb
    rw [Table.setWhere_column Allocation.fence _ (Allocation.terminal state reason) fun _ => rfl]
    exact h.bounded c hc
  · refine List.pairwise_map.mpr (h.increasing.imp ?_)
    intro b c hbc
    rw [Table.setWhere_column Allocation.fence _ (Allocation.terminal state reason) fun _ => rfl,
      Table.setWhere_column Allocation.fence _ (Allocation.terminal state reason) fun _ => rfl]
    exact hbc

theorem identity_columns {a b : Allocation} (h : a.identity = b.identity) :
    a.allocationId = b.allocationId ∧ a.resourceKeys = b.resourceKeys ∧ a.fence = b.fence := by
  simp only [Allocation.identity, Prod.mk.injEq] at h
  exact ⟨h.1, h.2.1, h.2.2.1⟩

theorem ResourceAuth.Proves.congr {body : ResourceAuth} {a b : Allocation} (h : body.Proves P a)
    (hid : a.identity = b.identity) : body.Proves P b := by
  simp only [Allocation.identity, Prod.mk.injEq] at hid
  obtain ⟨hname, _, hfence, htoken⟩ := hid
  exact ⟨hname ▸ h.name, htoken ▸ h.token, hfence ▸ h.fence⟩

theorem ledgerInv_changed (h : LedgerInv db) {a : Allocation} {p : Allocation → Bool}
    {f : Allocation → Allocation} (keeps : Table.Keeps Allocation.Clash f)
    (ha : a ∈ db.allocations) (honly : ∀ b, p b = true → b.allocationId = a.allocationId)
    (hid : ∀ b, (f b).identity = b.identity) (hlive : a.state.live = true)
    (hlive' : (f a).state.live = true) :
    LedgerInv { db with allocations := db.allocations.update p f keeps } := by
  have hcols : ∀ b, (Table.setWhere p f b).identity = b.identity :=
    Table.setWhere_column Allocation.identity p f hid
  -- the one row the update touches keeps its keys
  have hstate : ∀ b ∈ db.allocations,
      ((Table.setWhere p f b).state.live = true ↔ b.state.live = true) := by
    intro b hb
    by_cases hp : p b = true
    · have hba := allocation_eq_of_id hb ha (honly b hp)
      rw [Table.setWhere_pos hp, hba, hlive, hlive']
    · rw [Table.setWhere_neg hp]
  constructor
  · intro key id
    rw [h.holds key id]
    constructor
    · rintro ⟨b, hb, hbid, hbl, hbk⟩
      obtain ⟨hi, hk, _⟩ := identity_columns (hcols b)
      exact ⟨_, Table.update_mem keeps hb, hi.trans hbid, (hstate b hb).mpr hbl, hk ▸ hbk⟩
    · rintro ⟨c, hc, hcid, hcl, hck⟩
      dsimp only at hc
      obtain ⟨b, hb, rfl⟩ := Table.mem_update.mp hc
      obtain ⟨hi, hk, _⟩ := identity_columns (hcols b)
      exact ⟨b, hb, hi.symm.trans hcid, (hstate b hb).mp hcl, hk ▸ hck⟩
  · exact h.policy
  · intro c hc
    dsimp only at hc
    obtain ⟨b, hb, rfl⟩ := Table.mem_update.mp hc
    rw [(identity_columns (hcols b)).2.2]
    exact h.bounded b hb
  · refine List.pairwise_map.mpr (h.increasing.imp ?_)
    intro b c hbc
    rw [(identity_columns (hcols b)).2.2, (identity_columns (hcols c)).2.2]
    exact hbc

theorem mem_insertHolds {allocationId : String} {fence : Int} {keys : List String}
    {holds holds' : Table Hold Hold.Clash}
    (h : insertHolds allocationId fence keys holds = .ok holds') (x : Hold) :
    x ∈ holds' ↔ x ∈ holds ∨ ∃ key ∈ keys, x = ⟨key, allocationId, fence⟩ := by
  induction keys generalizing holds with
  | nil =>
    have heq : holds = holds' := Except.ok.inj h
    simp [heq]
  | cons key rest ih =>
    simp only [insertHolds, bind_eq_ok, inserted_eq_ok] at h
    obtain ⟨holds1, hins, h⟩ := h
    rw [ih h, Table.mem_insert hins]
    simp only [List.mem_cons, exists_eq_or_imp]
    tauto

theorem ledgerInv_reserved (h : LedgerInv db) {a : Allocation}
    {allocations : Table Allocation Allocation.Clash} {holds : Table Hold Hold.Clash}
    (hlive : a.state.live = true) (hnext : a.fence = db.lastFence.getD 0 + 1)
    (hknown : ∀ key ∈ a.resourceKeys, ∃ policy, db.policy = some policy ∧ key ∈ policy.resources)
    (hins : db.allocations.insert a = some allocations)
    (hwrite : insertHolds a.allocationId a.fence a.resourceKeys db.holds = .ok holds) :
    LedgerInv { db with lastFence := some a.fence, allocations := allocations, holds := holds } := by
  have hmem : ∀ b, b ∈ allocations ↔ b ∈ db.allocations ∨ b = a := fun b => Table.mem_insert hins
  have hhold := mem_insertHolds hwrite
  constructor
  · intro key id
    constructor
    · rintro ⟨x, hx, rfl, rfl⟩
      rcases (hhold x).mp hx with hx | ⟨key, hkey, rfl⟩
      · obtain ⟨b, hb, hrest⟩ := (h.holds _ _).mp ⟨x, hx, rfl, rfl⟩
        exact ⟨b, (hmem b).mpr (Or.inl hb), hrest⟩
      · exact ⟨a, (hmem a).mpr (Or.inr rfl), rfl, hlive, hkey⟩
    · rintro ⟨b, hb, rfl, hbl, hbk⟩
      rcases (hmem b).mp hb with hb | rfl
      · obtain ⟨x, hx, hk, hi⟩ := (h.holds _ _).mpr ⟨b, hb, rfl, hbl, hbk⟩
        exact ⟨x, (hhold x).mpr (Or.inl hx), hk, hi⟩
      · exact ⟨_, (hhold _).mpr (Or.inr ⟨key, hbk, rfl⟩), rfl, rfl⟩
  · intro x hx
    rcases (hhold x).mp hx with hx | ⟨key, hkey, rfl⟩
    · exact h.policy x hx
    · exact hknown key hkey
  · intro b hb
    change b.fence ≤ a.fence
    rcases (hmem b).mp hb with hb | rfl
    · have := h.bounded b hb
      omega
    · exact le_refl _
  · change List.Pairwise _ allocations.rows
    rw [Table.insert_rows hins, List.pairwise_append]
    refine ⟨h.increasing, List.pairwise_singleton _ _, ?_⟩
    intro b hb c hc
    rw [List.mem_singleton.mp hc]
    have := h.bounded b hb
    omega

theorem action_ledgerInv (haction : LedgerAction P request r db db') (h : LedgerInv db) :
    LedgerInv db' := by
  cases haction with
  | terminalized a state reason mem live dead why => exact ledgerInv_terminalized h reason dead
  | changed a p f keeps mem only identity live live' held =>
    exact ledgerInv_changed h keeps mem only identity live live'
  | reserved a allocations holds live next known insert write =>
    exact ledgerInv_reserved h live next known insert write
  | installed policy first =>
    refine ⟨h.holds, ?_, h.bounded, h.increasing⟩
    intro x hx
    rcases first with hnone | hempty
    · obtain ⟨old, hold, _⟩ := h.policy x hx
      rw [hnone] at hold
      exact absurd hold (by simp)
    · rw [Table.mem_def, hempty] at hx
      exact absurd hx List.not_mem_nil

/-! ## The history of one allocation -/

/-- Rows stay, a terminal state stays, and a held allocation of this boot stays held unless
the step has a reason to take its keys. -/
def Progress (P : LedgerPrims) (request : LedgerRequest) (r : LedgerReadings) (db db' : Ledger) : Prop :=
  ∀ a ∈ db.allocations, ∃ a' ∈ db'.allocations, a'.identity = a.identity ∧
    (a.state.live = false → a'.state = a.state) ∧
    (a.Held → a.claimBootId = some r.bootId →
      (a'.Held ∧ a'.claimBootId = a.claimBootId ∧ a'.owner = a.owner) ∨ Relinquished P request r a)

theorem Relinquished.congr {a b : Allocation} (h : Relinquished P request r a)
    (hid : a.identity = b.identity) (howner : a.owner = b.owner) :
    Relinquished P request r b := by
  cases h with
  | gone h => exact .gone (by rw [← howner, ← (identity_columns hid).1, h])
  | stopped body h auth seen => exact .stopped body h (auth.congr hid) seen
  | released body reason h auth => exact .released body reason h (auth.congr hid)

theorem Progress.refl (db : Ledger) : Progress P request r db db :=
  fun a ha => ⟨a, ha, rfl, fun _ => rfl, fun hheld _ => Or.inl ⟨hheld, rfl, rfl⟩⟩

theorem Progress.trans {a b c : Ledger} (hab : Progress P request r a b)
    (hbc : Progress P request r b c) : Progress P request r a c := by
  intro x hx
  obtain ⟨y, hy, hid, hdead, hheld⟩ := hab x hx
  obtain ⟨z, hz, hid', hdead', hheld'⟩ := hbc y hy
  refine ⟨z, hz, hid'.trans hid, ?_, ?_⟩
  · intro hx0
    have hxy := hdead hx0
    rw [hdead' (hxy ▸ hx0), hxy]
  · intro hxh hboot
    rcases hheld hxh hboot with ⟨hyh, hyb, hyo⟩ | hwhy
    · rcases hheld' hyh (hyb.trans hboot) with ⟨hzh, hzb, hzo⟩ | hwhy
      · exact Or.inl ⟨hzh, hzb.trans hyb, hzo.trans hyo⟩
      · exact Or.inr (hwhy.congr hid hyo)
    · exact Or.inr hwhy

theorem action_progress (haction : LedgerAction P request r db db') :
    Progress P request r db db' := by
  intro x hx
  cases haction with
  | terminalized a state reason mem live dead why =>
    refine ⟨Table.setWhere (fun b => b.allocationId = a.allocationId)
      (Allocation.terminal state reason) x, ?_, ?_, ?_, ?_⟩
    · exact Table.update_mem (f := Allocation.terminal state reason) (fun _ _ => ⟨id, id⟩) hx
    · exact Table.setWhere_column Allocation.identity _ (Allocation.terminal state reason)
        (fun _ => rfl) x
    · intro hdead
      rw [Table.setWhere_neg]
      intro hmatch
      rw [allocation_eq_of_id hx mem (by simpa using hmatch), live] at hdead
      exact absurd hdead (by simp)
    · intro hheld hboot
      by_cases hmatch : x.allocationId = a.allocationId
      · have hxa := allocation_eq_of_id hx mem hmatch
        subst hxa
        exact Or.inr (why hheld hboot)
      · rw [Table.setWhere_neg (by simpa using hmatch)]
        exact Or.inl ⟨hheld, rfl, rfl⟩
  | changed a p f keeps mem only identity live live' held =>
    refine ⟨Table.setWhere p f x, Table.update_mem keeps hx,
      Table.setWhere_column Allocation.identity p f identity x, ?_, ?_⟩
    · intro hdead
      rw [Table.setWhere_neg]
      intro hmatch
      rw [allocation_eq_of_id hx mem (only x hmatch), live] at hdead
      exact absurd hdead (by simp)
    · intro hheld _
      by_cases hp : p x = true
      · have hxa := allocation_eq_of_id hx mem (only x hp)
        subst hxa
        rw [Table.setWhere_pos hp]
        exact Or.inl (held hheld)
      · rw [Table.setWhere_neg hp]
        exact Or.inl ⟨hheld, rfl, rfl⟩
  | reserved a allocations holds live next known insert write =>
    exact ⟨x, (Table.mem_insert insert).mpr (Or.inl hx), rfl, fun _ => rfl,
      fun hheld _ => Or.inl ⟨hheld, rfl, rfl⟩⟩
  | installed policy first =>
    exact ⟨x, hx, rfl, fun _ => rfl, fun hheld _ => Or.inl ⟨hheld, rfl, rfl⟩⟩

/-- The rows in insertion order, by the columns that stay. -/
def Ledger.history (db : Ledger) : List (String × List String × Int × String) :=
  db.allocations.rows.map Allocation.identity

theorem history_update {p : Allocation → Bool} {f : Allocation → Allocation}
    (hid : ∀ b, (f b).identity = b.identity) (rows : List Allocation) :
    (rows.map (Table.setWhere p f)).map Allocation.identity = rows.map Allocation.identity := by
  rw [List.map_map]
  exact List.map_congr_left fun b _ => Table.setWhere_column Allocation.identity p f hid b

theorem action_history (haction : LedgerAction P request r db db') :
    db.history <+: db'.history := by
  cases haction with
  | terminalized a state reason mem live dead why =>
    have heq : (terminalizeResource db a.allocationId state reason).history = db.history :=
      history_update (f := Allocation.terminal state reason) (fun _ => rfl) db.allocations.rows
    rw [heq]
  | changed a p f keeps mem only identity live live' held =>
    have heq : { db with allocations := db.allocations.update p f keeps }.history = db.history :=
      history_update identity db.allocations.rows
    rw [heq]
  | reserved a allocations holds live next known insert write =>
    refine ⟨[a.identity], ?_⟩
    simp only [Ledger.history, Table.insert_rows insert, List.map_append, List.map_cons,
      List.map_nil]
  | installed policy first => exact List.prefix_rfl

/-- A chain of writes. -/
abbrev LedgerChain (P : LedgerPrims) (request : LedgerRequest) (r : LedgerReadings) :
    Ledger → Ledger → Prop :=
  Relation.ReflTransGen (LedgerAction P request r)

/-- What a transaction keeps, and what it does to the allocations there were. -/
structure LedgerMove (P : LedgerPrims) (request : LedgerRequest) (r : LedgerReadings)
    (db db' : Ledger) : Prop where
  inv : LedgerInv db → LedgerInv db'
  history : db.history <+: db'.history
  progress : Progress P request r db db'

theorem LedgerMove.refl (db : Ledger) : LedgerMove P request r db db :=
  ⟨id, List.prefix_rfl, Progress.refl db⟩

theorem chain_move (h : LedgerChain P request r db db') : LedgerMove P request r db db' := by
  induction h with
  | refl => exact LedgerMove.refl db
  | tail _ haction ih =>
    exact ⟨fun hinv => action_ledgerInv haction (ih.inv hinv),
      ih.history.trans (action_history haction), ih.progress.trans (action_progress haction)⟩

/-! ## Operations as chains -/

theorem reread_spec {allocationId : String} {row : Allocation}
    (h : db.reread allocationId = .ok row) :
    row ∈ db.allocations ∧ row.allocationId = allocationId := by
  unfold Ledger.reread at h
  split at h
  · rename_i found hlook
    rw [← Except.ok.inj h]
    exact ⟨Table.lookup_mem hlook, by simpa using Table.lookup_sat hlook⟩
  · simp at h

theorem reread_eq {row row' : Allocation} (hrow : row ∈ db.allocations)
    (h : db.reread row.allocationId = .ok row') : row' = row :=
  allocation_eq_of_id (reread_spec h).1 hrow (reread_spec h).2

/-- The quarantine update is a change in place. -/
theorem quarantine_action {a : Allocation} (ha : a ∈ db.allocations) (hclaimed : a.state = .claimed)
    (reason : String) :
    LedgerAction P request r db (quarantineResource db a.allocationId reason) := by
  refine .changed a _ (Allocation.terminal .quarantined reason) (fun _ _ => ⟨id, id⟩) ha ?_
    (fun _ => rfl) (by simp [hclaimed, AllocationState.live]) rfl fun _ => ⟨Or.inr rfl, rfl, rfl⟩
  intro b hb
  simp only [decide_eq_true_eq] at hb
  exact hb.1

/-- One pass of the sweep writes its own row at most. -/
theorem reconcileRow_chain (request : LedgerRequest) {row : Allocation} (hrow : row ∈ db.allocations)
    (hlive : row.state.live = true) (h : reconcileRow r db row = .ok db') :
    LedgerChain P request r db db' ∧
      ∀ b ∈ db.allocations, b.allocationId ≠ row.allocationId → b ∈ db'.allocations := by
  have hterm : ∀ {state : AllocationState} {reason : String}, state.live = false →
      (row.Held → row.claimBootId = some r.bootId → Relinquished P request r row) →
      LedgerChain P request r db (terminalizeResource db row.allocationId state reason) ∧
        ∀ b ∈ db.allocations, b.allocationId ≠ row.allocationId →
          b ∈ (terminalizeResource db row.allocationId state reason).allocations := by
    intro state reason hdead hwhy
    refine ⟨.single (.terminalized row state reason hrow hlive hdead hwhy), fun b hb hne => ?_⟩
    have hkeep := Table.update_mem (p := fun x : Allocation => x.allocationId = row.allocationId)
      (f := Allocation.terminal state reason) (fun _ _ => ⟨id, id⟩) hb
    rwa [Table.setWhere_neg (by simpa using hne)] at hkeep
  unfold reconcileRow at h
  split at h
  · rename_i hboot
    rw [← pure_eq_ok.mp h]
    refine hterm rfl fun hheld hcur => absurd ?_ hboot
    have hstate : row.state = .claimed ∨ row.state = .quarantined := hheld
    rw [Allocation.activeBoot, if_pos hstate, hcur]
  · split at h
    · rename_i hexp
      rw [← pure_eq_ok.mp h]
      refine hterm rfl fun hheld _ => ?_
      rcases hheld with hst | hst <;> simp [hexp.1] at hst
    · split at h
      · simp only [bind_eq_ok] at h
        obtain ⟨found, hfound, h⟩ := h
        rw [reread_eq hrow hfound] at h
        split at h
        · rename_i hgone
          rw [← pure_eq_ok.mp h]
          exact hterm rfl fun _ _ => .gone hgone
        · split at h
          · rename_i hclaimed
            rw [← pure_eq_ok.mp h]
            refine ⟨.single (quarantine_action hrow hclaimed _), fun b hb hne => ?_⟩
            have hkeep := Table.update_mem
              (p := fun x : Allocation => x.allocationId = row.allocationId ∧ x.state = .claimed)
              (f := Allocation.terminal .quarantined "process_cleanup_unverified")
              (fun _ _ => ⟨id, id⟩) hb
            rwa [Table.setWhere_neg (by simp [hne])] at hkeep
          · rw [← pure_eq_ok.mp h]
            exact ⟨.refl, fun b hb _ => hb⟩
        · rw [← pure_eq_ok.mp h]
          exact ⟨.refl, fun b hb _ => hb⟩
      · rw [← pure_eq_ok.mp h]
        exact ⟨.refl, fun b hb _ => hb⟩

theorem sweep_chain {rows : List Allocation}
    (hrows : ∀ row ∈ rows, row ∈ db.allocations ∧ row.state.live = true)
    (hpair : rows.Pairwise fun a b => a.allocationId ≠ b.allocationId)
    (h : rows.foldlM (reconcileRow r) db = .ok db') : LedgerChain P request r db db' := by
  induction rows generalizing db with
  | nil =>
    rw [List.foldlM_nil, pure_eq_ok] at h
    rw [h]
  | cons row rest ih =>
    rw [List.foldlM_cons, bind_eq_ok] at h
    obtain ⟨db1, hrow, hrest⟩ := h
    obtain ⟨hmem, hlive⟩ := hrows row List.mem_cons_self
    obtain ⟨hchain, hothers⟩ := reconcileRow_chain request hmem hlive hrow
    rw [List.pairwise_cons] at hpair
    refine hchain.trans (ih ?_ hpair.2 hrest)
    intro b hb
    obtain ⟨hbm, hbl⟩ := hrows b (List.mem_cons_of_mem _ hb)
    exact ⟨hothers b hbm fun heq => hpair.1 b hb heq.symm, hbl⟩

theorem reconcileResources_chain (h : reconcileResources r db = .ok db') :
    LedgerChain P request r db db' := by
  refine sweep_chain (fun row hrow => Table.mem_select.mp hrow) ?_ h
  exact (db.allocations.unique.imp fun hclash heq => hclash (Or.inl heq)).filter _

theorem resourceAuth_spec {body : ResourceAuth} {requireFence : Bool}
    {row : Allocation} (h : resourceAuth P body requireFence db = .ok row) :
    row ∈ db.allocations ∧ (requireFence = true → body.Proves P row) := by
  simp only [resourceAuth, bind_eq_ok] at h
  obtain ⟨allocationId, hid, h⟩ := h
  have hname : body.allocationId = .str allocationId := by
    unfold boundedResourceText at hid
    split at hid
    · rename_i text htext
      simp only [bind_eq_ok, pure_eq_ok] at hid
      obtain ⟨_, _, rfl⟩ := hid
      exact htext
    · simp at hid
  split at h
  · simp at h
  · rename_i found hlook
    have hfound : found ∈ db.allocations := Table.lookup_mem hlook
    have hkey : found.allocationId = allocationId := by simpa using Table.lookup_sat hlook
    split at h
    · rename_i token htoken
      simp only [bind_eq_ok, require_eq_ok] at h
      obtain ⟨_, _, _, hsha, h⟩ := h
      split at h
      · simp only [bind_eq_ok, pure_eq_ok, require_eq_ok] at h
        obtain ⟨fence, hint, _, hfence, rfl⟩ := h
        have hjson : body.fence = .int fence := by
          unfold requireInt at hint
          split at hint
          · rename_i n hn
            rw [hn, Except.ok.inj hint]
          · simp at hint
        exact ⟨hfound, fun _ => ⟨hkey ▸ hname, ⟨token, htoken, hsha⟩, hfence ▸ hjson⟩⟩
      · rename_i hno
        rw [← pure_eq_ok.mp h]
        exact ⟨hfound, fun hreq => absurd hreq hno⟩
    · simp at h

/-! ### Controller RPCs -/

theorem waitGone_spec {polls : List Cleanup} {last : Cleanup} (h : waitGone polls last = true) :
    .gone ∈ polls ∨ last = .gone := by
  induction polls with
  | nil => exact Or.inr (by simpa [waitGone] using h)
  | cons first rest ih =>
    cases first with
    | gone => exact Or.inl List.mem_cons_self
    | unknown => simp [waitGone] at h
    | live => exact (ih h).imp_left (List.mem_cons_of_mem _)

theorem terminateResourceOwner_sawGone (h : terminateResourceOwner r = true) : r.sawGone := by
  unfold terminateResourceOwner at h
  unfold LedgerReadings.sawGone
  split at h
  · rename_i hprobe
    exact Or.inl hprobe
  · simp at h
  · split at h
    · simp at h
    · rename_i again hkill
      rw [hkill, show again = .gone by simpa using h]
      exact Or.inr (Or.inl rfl)
    · rename_i pids hkill
      rw [hkill, show pids = some [] by simpa using h]
      exact Or.inr (Or.inr (Or.inl rfl))
    · rename_i polls last hkill
      exact Or.inr (Or.inr (Or.inr ⟨polls, last, hkill, waitGone_spec h⟩))

theorem resourcePolicyInstall_chain {body : InstallBody} {response : LedgerResponse}
    (h : resourcePolicyInstall P body db = .ok (db', response)) :
    LedgerChain P request r db db' := by
  simp only [resourcePolicyInstall, bind_eq_ok, require_eq_ok] at h
  obtain ⟨document, _, _, _, _, _, h⟩ := h
  split at h
  · rename_i hnone
    simp only [bind_eq_ok, require_eq_ok, pure_eq_ok, Prod.mk.injEq] at h
    obtain ⟨_, _, _, _, rfl, _⟩ := h
    exact .single (.installed document (Or.inl hnone))
  · split at h
    · simp only [pure_eq_ok, Prod.mk.injEq] at h
      rw [h.1]
    · simp only [bind_eq_ok, require_eq_ok, pure_eq_ok, Prod.mk.injEq] at h
      obtain ⟨_, _, _, _, _, _, _, hempty, rfl, _⟩ := h
      exact .single (.installed document (Or.inr hempty))

/-- The keys of a reservation that passes the policy check are those of the policy. -/
theorem reservePolicy_known {keys : List String} {generation : Int} {digest : String} {u : Unit}
    (h : reservePolicy db keys generation digest = .ok u) :
    ∀ key ∈ keys, ∃ policy, db.policy = some policy ∧ key ∈ policy.resources := by
  intro key hkey
  unfold reservePolicy at h
  rw [if_pos (List.ne_nil_of_mem hkey)] at h
  simp only [bind_eq_ok, require_eq_ok] at h
  obtain ⟨known, hknown, hall⟩ := h
  unfold requireResourcePolicy at hknown
  split at hknown
  · simp at hknown
  · rename_i policy hpolicy
    simp only [bind_eq_ok, pure_eq_ok] at hknown
    obtain ⟨_, _, rfl⟩ := hknown
    refine ⟨policy, hpolicy, ?_⟩
    have := List.filter_eq_nil_iff.mp hall key hkey
    simpa using this

theorem resourceReserve_chain {body : ReserveBody} {response : LedgerResponse}
    (h : resourceReserve P body r db = .ok (db', response)) : LedgerChain P request r db db' := by
  simp only [resourceReserve, bind_eq_ok] at h
  obtain ⟨allocationId, _, operationId, _, requestSha, _, keys, _, generation, _, digest, _, db1,
    hsweep, _, hpolicy, h⟩ := h
  refine (reconcileResources_chain hsweep).trans ?_
  split at h
  · simp only [bind_eq_ok, pure_eq_ok, Prod.mk.injEq] at h
    obtain ⟨_, _, rfl, _⟩ := h
    exact .refl
  · split at h
    · simp only [pure_eq_ok, Prod.mk.injEq] at h
      rw [h.1]
    · simp only [bind_eq_ok, inserted_eq_ok, pure_eq_ok, Prod.mk.injEq] at h
      obtain ⟨_, _, allocations, hins, holds, hwrite, rfl, _⟩ := h
      exact .single (.reserved _ allocations holds rfl rfl (reservePolicy_known hpolicy) hins hwrite)

/-- An update that changes one row, and keeps its keys. -/
theorem change_chain (row : Allocation) (p : Allocation → Bool) (f : Allocation → Allocation)
    (keeps : Table.Keeps Allocation.Clash f) (hrow : row ∈ db.allocations)
    (honly : ∀ b, p b = true → b.allocationId = row.allocationId)
    (hid : ∀ b, (f b).identity = b.identity) (hlive : row.state.live = true)
    (hlive' : (f row).state.live = true)
    (hheld : row.Held →
      (f row).Held ∧ (f row).claimBootId = row.claimBootId ∧ (f row).owner = row.owner) :
    LedgerChain P request r db { db with allocations := db.allocations.update p f keeps } :=
  .single (.changed row p f keeps hrow honly hid hlive hlive' hheld)

theorem resourceRenew_chain {body : RenewBody} {response : LedgerResponse}
    (h : resourceRenew P body r db = .ok (db', response)) : LedgerChain P request r db db' := by
  simp only [resourceRenew, bind_eq_ok] at h
  obtain ⟨_, _, db1, hsweep, row, hread, _, _, _, _, h⟩ := h
  refine (reconcileResources_chain hsweep).trans ?_
  split at h
  · simp only [pure_eq_ok, Prod.mk.injEq] at h
    rw [h.1]
  · rename_i hstate
    have hreserved : row.state = .reserved := not_not.mp hstate
    simp only [bind_eq_ok, pure_eq_ok, Prod.mk.injEq] at h
    obtain ⟨_, _, rfl, _⟩ := h
    refine change_chain row _ (Allocation.renewed _) (fun _ _ => ⟨id, id⟩)
      (reread_spec hread).1 ?_ (fun _ => rfl) ?_ ?_ fun hheld => ⟨hheld, rfl, rfl⟩
    · intro b hb
      simp only [decide_eq_true_eq] at hb
      exact hb.1
    · rw [hreserved]
      rfl
    · change row.state.live = true
      rw [hreserved]
      rfl

theorem cancelRow_chain {row : Allocation} {response : LedgerResponse}
    (hrow : row ∈ db.allocations) (hlive : row.state.live = true)
    (hwhy : row.Held → Relinquished P request r row)
    (h : cancelRow row r db = .ok (db', response)) : LedgerChain P request r db db' := by
  simp only [cancelRow, bind_eq_ok, pure_eq_ok, Prod.mk.injEq] at h
  obtain ⟨_, _, rfl, _⟩ := h
  exact .single (.terminalized row .cancelled _ hrow hlive rfl fun hheld _ => hwhy hheld)

/-- The sweep keeps every row's identity. -/
theorem reread_identity (hchain : LedgerChain P request r db db') {row row' : Allocation}
    (hrow : row ∈ db.allocations) (hread : db'.reread row.allocationId = .ok row') :
    row'.identity = row.identity := by
  obtain ⟨later, hlater, hid, _⟩ := (chain_move hchain).progress row hrow
  obtain ⟨hmem, hname⟩ := reread_spec hread
  rw [allocation_eq_of_id hmem hlater (hname.trans (identity_columns hid).1.symm)]
  exact hid

theorem resourceCancel_chain {body : ResourceAuth} {response : LedgerResponse}
    (h : resourceCancel P body r db = .ok (db', response)) :
    LedgerChain P (.cancel body) r db db' := by
  simp only [resourceCancel, bind_eq_ok] at h
  obtain ⟨row, hauth, db1, hsweep, current, hread, h⟩ := h
  obtain ⟨hrow, hproves⟩ := resourceAuth_spec hauth
  have hchain : LedgerChain P (.cancel body) r db db1 := reconcileResources_chain hsweep
  have hcurrent := (reread_spec hread).1
  have hcred : body.Proves P current :=
    (hproves rfl).congr (reread_identity hchain hrow hread).symm
  refine hchain.trans ?_
  have hstop : terminateResourceOwner r = true → Relinquished P (.cancel body) r current :=
    fun hgone => .stopped body rfl hcred (terminateResourceOwner_sawGone hgone)
  cases hstate : current.state with
  | cancelled | released | expired | rebooted =>
    simp only [hstate, pure_eq_ok, Prod.mk.injEq] at h
    rw [h.1]
  | reserved =>
    simp only [hstate] at h
    refine cancelRow_chain hcurrent (by rw [hstate]; rfl) (fun hheld => ?_) h
    rcases hheld with hst | hst <;> simp [hstate] at hst
  | claimed =>
    simp only [hstate] at h
    split at h
    · rename_i hgone
      exact cancelRow_chain hcurrent (by rw [hstate]; rfl) (fun _ => hstop hgone) h
    · simp only [bind_eq_ok, pure_eq_ok, Prod.mk.injEq] at h
      obtain ⟨_, _, rfl, _⟩ := h
      exact .single (quarantine_action hcurrent hstate _)
  | quarantined =>
    simp only [hstate] at h
    split at h
    · rename_i hgone
      exact cancelRow_chain hcurrent (by rw [hstate]; rfl) (fun _ => hstop hgone) h
    · simp only [bind_eq_ok, pure_eq_ok, Prod.mk.injEq] at h
      obtain ⟨_, _, rfl, _⟩ := h
      exact .refl

theorem resourceStatus_chain {body : ResourceAuth} {response : LedgerResponse}
    (h : resourceStatus P body r db = .ok (db', response)) : LedgerChain P request r db db' := by
  simp only [resourceStatus, bind_eq_ok, pure_eq_ok, Prod.mk.injEq] at h
  obtain ⟨_, _, db1, hsweep, _, _, rfl, _⟩ := h
  exact reconcileResources_chain hsweep

/-! ### Owner transitions -/

theorem resourceOwnerClaim_chain {body : ClaimBody} {owner : Owner} {response : LedgerResponse}
    (h : resourceOwnerClaim P body owner r db = .ok (db', response)) :
    LedgerChain P request r db db' := by
  simp only [resourceOwnerClaim, bind_eq_ok, require_eq_ok, pure_eq_ok, Prod.mk.injEq] at h
  obtain ⟨_, _, db1, hsweep, row, hread, _, hstate, _, _, _, _, _, _, _, _, _, _, _, _, rfl, _⟩ := h
  refine (reconcileResources_chain hsweep).trans ?_
  refine change_chain row _ (Allocation.claimed r owner) (fun _ _ => ⟨id, id⟩)
    (reread_spec hread).1 ?_ (fun _ => rfl) ?_ rfl ?_
  · intro b hb
    simp only [decide_eq_true_eq] at hb
    exact hb.1
  · rw [hstate]
    rfl
  · intro hheld
    rcases hheld with hst | hst <;> simp [hstate] at hst

theorem resourceOwnerStartState_chain {body : ResourceAuth} {state : StartState}
    {explicitNoStart : Bool} {response : LedgerResponse}
    (h : resourceOwnerStartState P body state explicitNoStart r db = .ok (db', response)) :
    LedgerChain P request r db db' := by
  simp only [resourceOwnerStartState, bind_eq_ok, require_eq_ok, pure_eq_ok, Prod.mk.injEq] at h
  obtain ⟨row, hauth, _, ⟨hstate, _⟩, _, _, _, _, rfl, _⟩ := h
  have hlive : row.state.live = true := by rw [hstate]; rfl
  refine change_chain row _ (Allocation.started state) (fun _ _ => ⟨id, id⟩)
    (resourceAuth_spec hauth).1 ?_ (fun _ => rfl) hlive hlive fun hheld => ⟨hheld, rfl, rfl⟩
  intro b hb
  simp only [decide_eq_true_eq] at hb
  exact hb.1

theorem resourceOwnerExecConfirm_chain {body : ResourceAuth} {userPid : Int} {userStartId : String}
    {response : LedgerResponse}
    (h : resourceOwnerExecConfirm P body userPid userStartId r db = .ok (db', response)) :
    LedgerChain P request r db db' := by
  simp only [resourceOwnerExecConfirm, bind_eq_ok, require_eq_ok, pure_eq_ok, Prod.mk.injEq] at h
  obtain ⟨row, hauth, _, ⟨hstate, _⟩, _, _, _, _, _, _, _, _, rfl, _⟩ := h
  have hlive : row.state.live = true := by rw [hstate]; rfl
  refine change_chain row _ (Allocation.confirmed userPid userStartId) (fun _ _ => ⟨id, id⟩)
    (resourceAuth_spec hauth).1 ?_ (fun _ => rfl) hlive hlive fun hheld => ⟨hheld, rfl, rfl⟩
  intro b hb
  simp only [decide_eq_true_eq] at hb
  exact hb.1

theorem resourceOwnerRelease_chain {body : ResourceAuth} {reason : String}
    {response : LedgerResponse}
    (hwhy : ∀ row ∈ db.allocations, body.Proves P row → Relinquished P request r row)
    (h : resourceOwnerRelease P body reason r db = .ok (db', response)) :
    LedgerChain P request r db db' := by
  simp only [resourceOwnerRelease, bind_eq_ok, require_eq_ok] at h
  obtain ⟨row, hauth, _, hboot, h⟩ := h
  obtain ⟨hrow, hproves⟩ := resourceAuth_spec hauth
  split at h
  · simp only [pure_eq_ok, Prod.mk.injEq] at h
    rw [h.1]
  · simp only [bind_eq_ok, require_eq_ok, pure_eq_ok, Prod.mk.injEq] at h
    obtain ⟨_, hstate, _, _, rfl, _⟩ := h
    exact .single (.terminalized row .released reason hrow (Allocation.Held.live hstate) rfl
      fun _ _ => hwhy row hrow (hproves rfl))

theorem resourceOwnerQuarantine_chain {body : ResourceAuth} {reason : String}
    {response : LedgerResponse}
    (h : resourceOwnerQuarantine P body reason r db = .ok (db', response)) :
    LedgerChain P request r db db' := by
  simp only [resourceOwnerQuarantine, bind_eq_ok, require_eq_ok] at h
  obtain ⟨row, hauth, _, hboot, h⟩ := h
  split at h
  · simp only [pure_eq_ok, Prod.mk.injEq] at h
    rw [h.1]
  · simp only [bind_eq_ok, require_eq_ok, pure_eq_ok, Prod.mk.injEq] at h
    obtain ⟨_, hstate, _, _, rfl, _⟩ := h
    exact .single (quarantine_action (resourceAuth_spec hauth).1 hstate reason)

/-- A release within a finish follows a probe that found the tree of the same row gone. -/
theorem resourceOwnerFinish_chain {body : ResourceAuth} {response : LedgerResponse}
    (h : resourceOwnerFinish P body r db = .ok (db', response)) :
    LedgerChain P request r db db' := by
  simp only [resourceOwnerFinish, bind_eq_ok, require_eq_ok] at h
  obtain ⟨row, hauth, _, hboot, h⟩ := h
  obtain ⟨hrow, hproves⟩ := resourceAuth_spec hauth
  split at h
  · simp only [pure_eq_ok, Prod.mk.injEq] at h
    rw [h.1]
  · simp only [bind_eq_ok, require_eq_ok] at h
    obtain ⟨_, _, h⟩ := h
    split at h
    · rename_i hgone
      refine resourceOwnerRelease_chain (fun again hagain hcred => ?_) h
      have hname := (hproves rfl).name.symm.trans hcred.name
      rw [Json.str.injEq] at hname
      rw [← allocation_eq_of_id hrow hagain hname]
      exact .gone hgone
    · exact resourceOwnerQuarantine_chain h
    · exact resourceOwnerQuarantine_chain h

/-! ### Transactions -/

theorem ledgerOperation_chain {response : LedgerResponse}
    (h : ledgerOperation P request r db = .ok (db', response)) :
    LedgerChain P request r db db' := by
  cases request with
  | policyGet =>
    simp only [ledgerOperation, Except.ok.injEq, Prod.mk.injEq] at h
    rw [h.1]
  | policyInstall body => exact resourcePolicyInstall_chain h
  | reserve body => exact resourceReserve_chain h
  | renew body => exact resourceRenew_chain h
  | cancel body => exact resourceCancel_chain h
  | status body => exact resourceStatus_chain h
  | ownerClaim body owner => exact resourceOwnerClaim_chain h
  | ownerStart body state explicitNoStart => exact resourceOwnerStartState_chain h
  | ownerExecConfirm body userPid userStartId => exact resourceOwnerExecConfirm_chain h
  | ownerRelease body reason =>
    exact resourceOwnerRelease_chain (fun _ _ hcred => .released body reason rfl hcred) h
  | ownerQuarantine body reason => exact resourceOwnerQuarantine_chain h
  | ownerFinish body => exact resourceOwnerFinish_chain h
  | ownerStatus body => exact resourceStatus_chain h

/-- The replay record is outside the tables of the ledger. -/
theorem ledgerRpc_move {call : LedgerCall} {response : LedgerResponse}
    (h : ledgerRpc P call r db = .ok (db', response)) : LedgerMove P call.request r db db' := by
  unfold ledgerRpc at h
  split at h
  · exact chain_move (ledgerOperation_chain h)
  · split at h
    · simp only [bind_eq_ok, pure_eq_ok, Prod.mk.injEq] at h
      obtain ⟨_, _, rfl, _⟩ := h
      exact LedgerMove.refl db
    · simp only [bind_eq_ok, pure_eq_ok, Prod.mk.injEq] at h
      obtain ⟨⟨db1, answer⟩, hop, rpcRequests, _, rfl, _⟩ := h
      obtain ⟨hinv, hhistory, hprogress⟩ := chain_move (ledgerOperation_chain hop)
      refine ⟨fun h0 => ?_, hhistory, hprogress⟩
      exact ⟨(hinv h0).holds, (hinv h0).policy, (hinv h0).bounded, (hinv h0).increasing⟩

theorem ledgerStep_move (P : LedgerPrims) (db : Ledger) (event : LedgerCall × LedgerReadings) :
    LedgerMove P event.1.request event.2 db (ledgerStep P db event) := by
  unfold ledgerStep committed
  split
  · rename_i db' response h
    exact ledgerRpc_move h
  · exact LedgerMove.refl db

end Actions

/-! ## Whole runs -/

/-- The ledger after a list of transactions on an empty store. -/
def ledgerRun (P : LedgerPrims) (events : List (LedgerCall × LedgerReadings)) : Ledger :=
  Transition.run (ledgerStep P) Ledger.init events

theorem ledgerRun_append (P : LedgerPrims) (events more : List (LedgerCall × LedgerReadings)) :
    ledgerRun P (events ++ more) = Transition.run (ledgerStep P) (ledgerRun P events) more :=
  Transition.run_append _ _ _

theorem ledgerRun_inv (P : LedgerPrims) (events : List (LedgerCall × LedgerReadings)) :
    LedgerInv (ledgerRun P events) :=
  Transition.run_invariant LedgerInv (fun db event h _ => (ledgerStep_move P db event).inv h)
    ledgerInv_init Transition.along_true

/-- Rows stay in their order and a terminal state stays. -/
def Ledger.Settles (db db' : Ledger) : Prop :=
  db.history <+: db'.history ∧ ∀ a ∈ db.allocations, a.state.live = false →
    ∃ a' ∈ db'.allocations, a'.identity = a.identity ∧ a'.state = a.state

theorem Ledger.Settles.trans {a b c : Ledger} (hab : a.Settles b) (hbc : b.Settles c) :
    a.Settles c := by
  refine ⟨hab.1.trans hbc.1, fun x hx hdead => ?_⟩
  obtain ⟨y, hy, hid, hst⟩ := hab.2 x hx hdead
  obtain ⟨z, hz, hid', hst'⟩ := hbc.2 y hy (hst ▸ hdead)
  exact ⟨z, hz, hid'.trans hid, hst'.trans hst⟩

theorem LedgerMove.settles {P : LedgerPrims} {request : LedgerRequest} {r : LedgerReadings}
    {db db' : Ledger} (h : LedgerMove P request r db db') : db.Settles db' := by
  refine ⟨h.history, fun a ha hdead => ?_⟩
  obtain ⟨a', ha', hid, hkeep, _⟩ := h.progress a ha
  exact ⟨a', ha', hid, hkeep hdead⟩

theorem ledgerRun_settles (P : LedgerPrims) (events more : List (LedgerCall × LedgerReadings)) :
    (ledgerRun P events).Settles (ledgerRun P (events ++ more)) := by
  rw [ledgerRun_append]
  refine Transition.run_climbs (fun _ => True) Ledger.Settles
    (fun db => ⟨List.prefix_rfl, fun a ha _ => ⟨a, ha, rfl, rfl⟩⟩) (fun _ _ _ => .trans)
    (fun db event _ _ => ⟨trivial, (ledgerStep_move P db event).settles⟩) trivial
    Transition.along_true

/-- The ledger gives every key to one live allocation at most. -/
structure LedgerExclusive (db : Ledger) : Prop where
  /-- the held pairs are those of the live allocations -/
  holds : ∀ key id, (∃ h ∈ db.holds, h.resourceKey = key ∧ h.allocationId = id) ↔
    ∃ a ∈ db.allocations, a.allocationId = id ∧ a.state.live = true ∧ key ∈ a.resourceKeys
  exclusive : ∀ a ∈ db.allocations, ∀ b ∈ db.allocations, a.state.live = true →
    b.state.live = true → ∀ key ∈ a.resourceKeys, key ∈ b.resourceKeys → a = b
  policy : ∀ h ∈ db.holds, ∃ policy, db.policy = some policy ∧ h.resourceKey ∈ policy.resources
  /-- in the order of the reservations -/
  fences : db.allocations.rows.Pairwise fun a b => a.fence < b.fence

theorem LedgerInv.toExclusive {db : Ledger} (h : LedgerInv db) : LedgerExclusive db := by
  refine ⟨h.holds, ?_, h.policy, h.increasing⟩
  intro a ha b hb hla hlb key hka hkb
  obtain ⟨x, hx, hxk, hxa⟩ := (h.holds key a.allocationId).mpr ⟨a, ha, rfl, hla, hka⟩
  obtain ⟨y, hy, hyk, hyb⟩ := (h.holds key b.allocationId).mpr ⟨b, hb, rfl, hlb, hkb⟩
  -- the key is the primary key of the holds
  have hxy : x = y := Table.eq_of_clash hx hy (hxk.trans hyk.symm) (hyk.trans hxk.symm)
  exact allocation_eq_of_id ha hb (by rw [← hxa, ← hyb, hxy])

/-- In every run: the holds are exactly those of the live allocations and exclude each
other, rows are kept in the order of their fences, a terminal state is final, and an owned
allocation of the current boot keeps its keys in every step that neither saw its process
tree gone nor is its own release. -/
theorem ledgerRun_exclusive (P : LedgerPrims) (events : List (LedgerCall × LedgerReadings)) :
    LedgerExclusive (ledgerRun P events) ∧
      (∀ more, (ledgerRun P events).Settles (ledgerRun P (events ++ more))) ∧
      ∀ event, ∀ a ∈ (ledgerRun P events).allocations, a.Held →
        a.claimBootId = some event.2.bootId →
        ¬ Relinquished P event.1.request event.2 a →
        ∀ key ∈ a.resourceKeys, ∃ h ∈ (ledgerRun P (events ++ [event])).holds,
          h.resourceKey = key ∧ h.allocationId = a.allocationId := by
  refine ⟨(ledgerRun_inv P events).toExclusive, ledgerRun_settles P events, ?_⟩
  intro event a ha hheld hboot hwhy key hkey
  have hstep : ledgerRun P (events ++ [event]) = ledgerStep P (ledgerRun P events) event :=
    ledgerRun_append P events [event]
  obtain ⟨a', ha', hid, _, hkeep⟩ := (ledgerStep_move P (ledgerRun P events) event).progress a ha
  obtain ⟨hname, hkeys, _⟩ := identity_columns hid
  have hheld' : a'.Held := by
    rcases hkeep hheld hboot with hkept | hreason
    · exact hkept.1
    · exact absurd hreason hwhy
  refine ((ledgerRun_inv P (events ++ [event])).holds key a.allocationId).mpr ?_
  rw [hstep]
  exact ⟨a', ha', hname, hheld'.live, hkeys ▸ hkey⟩

end Remrun.Runner
