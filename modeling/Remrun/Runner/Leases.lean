import Remrun.Lib.Transition
import Remrun.Runner.Effects

/-!
# Lease exclusivity

The `projects` and `leases` tables move together. `LeaseInv` is what every operation
preserves; the discipline the protocol promises is read off it for whole runs.
-/

namespace Remrun.Runner

open Relational
set_option autoImplicit false

variable {P : Prims}

/-- The two tables agree on who holds which project, under which fence and phase. -/
structure LeaseInv (projects : Table Project Project.Clash) (leases : Table Lease Lease.Clash) :
    Prop where
  pointer : ∀ p ∈ projects, ∀ id, p.currentLeaseId = some id → ∃ l ∈ leases,
    l.leaseId = id ∧ l.projectKey = p.projectKey ∧ l.state = .active ∧
      l.fence = p.nextFence ∧ (p.state = .recovery → l.phase = .recovery)
  nonempty : ∀ l ∈ leases, l.leaseId ≠ ""
  active : ∀ l ∈ leases, l.state = .active →
    ∃ p ∈ projects, p.projectKey = l.projectKey ∧ p.currentLeaseId = some l.leaseId
  owner : ∀ l ∈ leases, ∃ p ∈ projects, p.projectKey = l.projectKey ∧
    0 < l.fence ∧ l.fence ≤ p.nextFence
  attained : ∀ p ∈ projects, p.nextFence = 0 ∨
    ∃ l ∈ leases, l.projectKey = p.projectKey ∧ l.fence = p.nextFence
  nonneg : ∀ p ∈ projects, 0 ≤ p.nextFence
  increasing : leases.rows.Pairwise fun a b => a.projectKey = b.projectKey → a.fence < b.fence
  recovery : ∀ p ∈ projects, p.state = .recovery ↔ p.recoveryPriorState.isSome = true
  prior : ∀ p ∈ projects, p.recoveryPriorState ≠ some .recovery

theorem lease_eq_of_id {leases : Table Lease Lease.Clash} {a b : Lease} (ha : a ∈ leases)
    (hb : b ∈ leases) (h : a.leaseId = b.leaseId) : a = b :=
  Table.eq_of_clash ha hb (Or.inl h) (Or.inl h.symm)

theorem project_table_eq {projects : Table Project Project.Clash} {p q : Project}
    (hp : p ∈ projects) (hq : q ∈ projects) (h : p.projectKey = q.projectKey) : p = q :=
  Table.eq_of_clash hp hq (Or.inl h) (Or.inl h.symm)

theorem leaseInv_empty : LeaseInv .empty .empty where
  pointer := fun p hp => absurd hp (Table.not_mem_empty p)
  nonempty := fun l hl => absurd hl (Table.not_mem_empty l)
  active := fun l hl => absurd hl (Table.not_mem_empty l)
  owner := fun l hl => absurd hl (Table.not_mem_empty l)
  attained := fun p hp => absurd hp (Table.not_mem_empty p)
  nonneg := fun p hp => absurd hp (Table.not_mem_empty p)
  increasing := List.Pairwise.nil
  recovery := fun p hp => absurd hp (Table.not_mem_empty p)
  prior := fun p hp => absurd hp (Table.not_mem_empty p)

section Steps
variable {projects projects' : Table Project Project.Clash}
variable {leases leases' : Table Lease Lease.Clash}

theorem leaseInv_register (h : LeaseInv projects leases) {body : RegisterBody}
    (hins : projects.insert (freshProject body) = some projects') : LeaseInv projects' leases := by
  have hmem : ∀ p, p ∈ projects' ↔ p ∈ projects ∨ p = freshProject body :=
    fun p => Table.mem_insert hins
  constructor
  · intro p hp id hid
    rcases (hmem p).mp hp with hp | rfl
    · exact h.pointer p hp id hid
    · simp [freshProject] at hid
  · exact h.nonempty
  · intro l hl hact
    obtain ⟨p, hp, hrest⟩ := h.active l hl hact
    exact ⟨p, (hmem p).mpr (Or.inl hp), hrest⟩
  · intro l hl
    obtain ⟨p, hp, hrest⟩ := h.owner l hl
    exact ⟨p, (hmem p).mpr (Or.inl hp), hrest⟩
  · intro p hp
    rcases (hmem p).mp hp with hp | rfl
    · exact h.attained p hp
    · exact Or.inl rfl
  · intro p hp
    rcases (hmem p).mp hp with hp | rfl
    · exact h.nonneg p hp
    · exact le_refl _
  · exact h.increasing
  · intro p hp
    rcases (hmem p).mp hp with hp | rfl
    · exact h.recovery p hp
    · simp [freshProject]
  · intro p hp
    rcases (hmem p).mp hp with hp | rfl
    · exact h.prior p hp
    · simp [freshProject]

/-- The lease columns that decide exclusivity. -/
def Lease.SameHold (a b : Lease) : Prop :=
  a.leaseId = b.leaseId ∧ a.projectKey = b.projectKey ∧ a.fence = b.fence ∧
    a.state = b.state ∧ a.phase = b.phase

/-- An update that touches none of those columns changes nothing. -/
theorem leaseInv_update_same (h : LeaseInv projects leases) {p : Lease → Bool} {f : Lease → Lease}
    (hf : Table.Keeps Lease.Clash f) (hsame : ∀ l, (f l).SameHold l) :
    LeaseInv projects (leases.update p f hf) := by
  have hrow : ∀ l, (Table.setWhere p f l).SameHold l := by
    intro l
    unfold Table.setWhere
    split
    · exact hsame l
    · exact ⟨rfl, rfl, rfl, rfl, rfl⟩
  have hfwd : ∀ l ∈ leases, (Table.setWhere p f l) ∈ leases.update p f hf :=
    fun l hl => Table.mem_update.mpr ⟨l, hl, rfl⟩
  constructor
  · intro q hq id hid
    obtain ⟨l, hl, hlid, hkey, hact, hfence, hphase⟩ := h.pointer q hq id hid
    obtain ⟨rid, rkey, rfence, rstate, rphase⟩ := hrow l
    refine ⟨_, hfwd l hl, rid.trans hlid, rkey.trans hkey, rstate.trans hact,
      rfence.trans hfence, fun hrec => rphase.trans (hphase hrec)⟩
  · intro l hl
    obtain ⟨b, hb, rfl⟩ := Table.mem_update.mp hl
    rw [(hrow b).1]
    exact h.nonempty b hb
  · intro l hl hact
    obtain ⟨b, hb, rfl⟩ := Table.mem_update.mp hl
    obtain ⟨rid, rkey, _, rstate, _⟩ := hrow b
    rw [rid, rkey]
    exact h.active b hb (rstate.symm.trans hact)
  · intro l hl
    obtain ⟨b, hb, rfl⟩ := Table.mem_update.mp hl
    obtain ⟨_, rkey, rfence, _, _⟩ := hrow b
    rw [rkey, rfence]
    exact h.owner b hb
  · intro q hq
    rcases h.attained q hq with h0 | ⟨l, hl, hkey, hfence⟩
    · exact Or.inl h0
    · exact Or.inr ⟨_, hfwd l hl, (hrow l).2.1.trans hkey, (hrow l).2.2.1.trans hfence⟩
  · exact h.nonneg
  · refine List.pairwise_map.mpr (h.increasing.imp ?_)
    intro a b hab hkey
    rw [(hrow a).2.2.1, (hrow b).2.2.1]
    exact hab ((hrow a).2.1.symm.trans (hkey.trans (hrow b).2.1))
  · exact h.recovery
  · exact h.prior

/-! ### Granting a lease -/

/-- The row of the project's current lease is superseded, every other row is kept. -/
def supersede (project : Project) (l : Lease) : Lease :=
  if project.currentLeaseId = some l.leaseId then { l with state := .superseded } else l

theorem supersede_columns (project : Project) (l : Lease) :
    (supersede project l).leaseId = l.leaseId ∧ (supersede project l).projectKey = l.projectKey ∧
      (supersede project l).fence = l.fence ∧ (supersede project l).phase = l.phase := by
  unfold supersede
  split <;> exact ⟨rfl, rfl, rfl, rfl⟩

theorem currentLease_eq_none {db : Authority} {project : Project}
    (h : project.currentLeaseId = none) : currentLease db project = none := by
  simp [currentLease, truthy, h]

theorem currentLease_eq_some {db : Authority} (h : LeaseInv db.projects db.leases)
    {project : Project} (hp : project ∈ db.projects) {id : String}
    (hid : project.currentLeaseId = some id) :
    ∃ l ∈ db.leases, currentLease db project = some l ∧ l.leaseId = id := by
  obtain ⟨l, hl, hlid, _⟩ := h.pointer project hp id hid
  have hne : id ≠ "" := hlid ▸ h.nonempty l hl
  refine ⟨l, hl, ?_, hlid⟩
  unfold currentLease
  rw [hid, if_pos (by simp [truthy, hne])]
  apply Table.lookup_eq_some hl (by simp [hlid])
  intro b hb heq
  exact lease_eq_of_id hb hl (by simpa [hlid] using heq)

/-- What a granted acquire writes, row by row. -/
theorem grantLease_spec {db db' : Authority} (h : LeaseInv db.projects db.leases)
    {project : Project} (hp : project ∈ db.projects) {lease : Lease}
    (hw : grantLease db project lease = .ok db') :
    db'.leases.rows = db.leases.rows.map (supersede project) ++ [lease] ∧
      db' = { db with
        leases := db'.leases
        projects := db.projects.update (fun p => p.projectKey = project.projectKey)
          (fun p => p.granted lease) (project_keeps_granted lease) } ∧
      (∀ l ∈ db.leases, ¬ Lease.Clash l lease) := by
  simp only [grantLease, bind_eq_ok, inserted_eq_ok] at hw
  obtain ⟨inserted, hins, hw⟩ := hw
  have hclash : ∀ l ∈ db.leases, ¬ Lease.Clash l lease := fun l hl => Table.insert_no_clash hins hl
  split at hw
  · simp at hw
  · rw [pure_eq_ok] at hw
    subst hw
    refine ⟨?_, rfl, hclash⟩
    cases hid : project.currentLeaseId with
    | none =>
      rw [currentLease_eq_none hid]
      have hmap : db.leases.rows.map (supersede project) = db.leases.rows := by
        apply List.map_id''
        intro l
        simp [supersede, hid]
      rw [hmap]
      exact Table.insert_rows hins
    | some id =>
      obtain ⟨cur, hcur, hlook, hcurId⟩ := currentLease_eq_some h hp hid
      rw [hlook]
      have hne : ¬ lease.leaseId = cur.leaseId := fun heq => hclash cur hcur (Or.inl heq.symm)
      simp only [Table.update, Table.insert_rows hins, List.map_append, List.map_cons,
        List.map_nil]
      rw [Table.setWhere_neg (a := lease) (by simpa using hne)]
      congr 1
      apply List.map_congr_left
      intro l _
      simp only [Table.setWhere, supersede, hid, Option.some.injEq, ← hcurId, decide_eq_true_eq]
      by_cases heq : l.leaseId = cur.leaseId
      · rw [if_pos heq, if_pos heq.symm]
      · rw [if_neg heq, if_neg (Ne.symm heq)]

theorem leaseInv_grant {db db' : Authority} (h : LeaseInv db.projects db.leases)
    {project : Project} (hp : project ∈ db.projects) {lease : Lease}
    (hkey : lease.projectKey = project.projectKey)
    (hfence : lease.fence = project.nextFence + 1) (hact : lease.state = .active)
    (hne : lease.leaseId ≠ "") (hphase : project.state = .recovery → lease.phase = .recovery)
    (hw : grantLease db project lease = .ok db') : LeaseInv db'.projects db'.leases := by
  obtain ⟨hrows, hdb, hclash⟩ := grantLease_spec h hp hw
  have hmem : ∀ l, l ∈ db'.leases ↔ (∃ b ∈ db.leases, supersede project b = l) ∨ l = lease := by
    intro l
    rw [Table.mem_def, hrows]
    simp [Table.mem_def]
  have hproj : ∀ q, q ∈ db'.projects ↔ ∃ p ∈ db.projects,
      (if p.projectKey = project.projectKey then p.granted lease else p) = q := by
    intro q
    rw [hdb, Table.mem_update]
    simp only [Table.setWhere, decide_eq_true_eq]
  have hself : project.granted lease ∈ db'.projects :=
    (hproj _).mpr ⟨project, hp, by rw [if_pos rfl]⟩
  have hother : ∀ p ∈ db.projects, p.projectKey ≠ project.projectKey → p ∈ db'.projects :=
    fun p hpm hpne => (hproj _).mpr ⟨p, hpm, by rw [if_neg hpne]⟩
  have hcases : ∀ q ∈ db'.projects, q = project.granted lease ∨
      (q ∈ db.projects ∧ q.projectKey ≠ project.projectKey) := by
    intro q hq
    obtain ⟨p, hpm, rfl⟩ := (hproj q).mp hq
    by_cases heq : p.projectKey = project.projectKey
    · rw [if_pos heq, project_table_eq hpm hp heq]
      exact Or.inl rfl
    · rw [if_neg heq]
      exact Or.inr ⟨hpm, heq⟩
  have hlease : lease ∈ db'.leases := (hmem _).mpr (Or.inr rfl)
  have hkept : ∀ l ∈ db.leases, l.projectKey ≠ project.projectKey → l ∈ db'.leases := by
    intro l hl hlne
    refine (hmem l).mpr (Or.inl ⟨l, hl, ?_⟩)
    unfold supersede
    split
    · rename_i hcur
      obtain ⟨l', hl', hid, hk, _⟩ := h.pointer project hp _ hcur
      exact absurd (lease_eq_of_id hl' hl hid ▸ hk) hlne
    · rfl
  constructor
  · intro q hq id hid
    rcases hcases q hq with rfl | ⟨hqm, hqne⟩
    · have hid' : lease.leaseId = id := by simpa [Project.granted] using hid
      refine ⟨lease, hlease, hid', hkey, hact, rfl, ?_⟩
      intro hrec
      by_cases hph : lease.phase = .recovery
      · exact hph
      · simp only [Project.granted, if_neg hph] at hrec
        exact hphase hrec
    · obtain ⟨l, hl, hlid, hk, hrest⟩ := h.pointer q hqm id hid
      exact ⟨l, hkept l hl (hk ▸ hqne), hlid, hk, hrest⟩
  · intro l hl
    rcases (hmem l).mp hl with ⟨b, hb, rfl⟩ | rfl
    · rw [(supersede_columns project b).1]
      exact h.nonempty b hb
    · exact hne
  · intro l hl hlact
    rcases (hmem l).mp hl with ⟨b, hb, rfl⟩ | rfl
    · unfold supersede at hlact ⊢
      split at hlact
      · simp at hlact
      · rename_i hcur
        rw [if_neg hcur]
        obtain ⟨p, hpm, hpk, hpc⟩ := h.active b hb hlact
        by_cases heq : p.projectKey = project.projectKey
        · exact absurd (project_table_eq hpm hp heq ▸ hpc) hcur
        · exact ⟨p, hother p hpm heq, hpk, hpc⟩
    · exact ⟨_, hself, hkey.symm, rfl⟩
  · intro l hl
    rcases (hmem l).mp hl with ⟨b, hb, rfl⟩ | rfl
    · obtain ⟨_, hk, hf, _⟩ := supersede_columns project b
      rw [hk, hf]
      obtain ⟨p, hpm, hpk, hpos, hle⟩ := h.owner b hb
      by_cases heq : p.projectKey = project.projectKey
      · refine ⟨_, hself, heq ▸ hpk, hpos, ?_⟩
        have hpp := project_table_eq hpm hp heq
        subst hpp
        change b.fence ≤ lease.fence
        omega
      · exact ⟨p, hother p hpm heq, hpk, hpos, hle⟩
    · have h0 := h.nonneg project hp
      exact ⟨_, hself, hkey.symm, by omega, le_refl _⟩
  · intro q hq
    rcases hcases q hq with rfl | ⟨hqm, hqne⟩
    · exact Or.inr ⟨lease, hlease, hkey, rfl⟩
    · rcases h.attained q hqm with h0 | ⟨l, hl, hk, hf⟩
      · exact Or.inl h0
      · exact Or.inr ⟨l, hkept l hl (hk ▸ hqne), hk, hf⟩
  · intro q hq
    rcases hcases q hq with rfl | ⟨hqm, _⟩
    · have h0 := h.nonneg project hp
      change 0 ≤ lease.fence
      omega
    · exact h.nonneg q hqm
  · rw [hrows, List.pairwise_append]
    refine ⟨List.pairwise_map.mpr (h.increasing.imp ?_), List.pairwise_singleton _ _, ?_⟩
    · intro a b hab hk
      obtain ⟨_, ak, af, _⟩ := supersede_columns project a
      obtain ⟨_, bk, bf, _⟩ := supersede_columns project b
      rw [af, bf]
      exact hab (ak ▸ bk ▸ hk)
    · intro a ha b hb hk
      obtain ⟨c, hc, rfl⟩ := List.mem_map.mp ha
      rw [List.mem_singleton.mp hb] at hk ⊢
      obtain ⟨_, ck, cf, _⟩ := supersede_columns project c
      rw [cf]
      obtain ⟨p, hpm, hpk, _, hle⟩ := h.owner c hc
      have hpp : p = project :=
        project_table_eq hpm hp (hpk.trans (ck.symm.trans (hk.trans hkey)))
      subst hpp
      omega
  · intro q hq
    rcases hcases q hq with rfl | ⟨hqm, _⟩
    · simp only [Project.granted]
      have hrec := h.recovery project hp
      by_cases hph : lease.phase = .recovery
      · by_cases hst : project.state = .recovery
        · simpa [hph, hst] using hrec.mp hst
        · simp [hph, hst]
      · simpa [hph] using hrec
    · exact h.recovery q hqm
  · intro q hq
    rcases hcases q hq with rfl | ⟨hqm, _⟩
    · simp only [Project.granted]
      split
      · rename_i hph
        simpa using hph.2
      · exact h.prior project hp
    · exact h.prior q hqm

/-! ### Releasing and restoring -/

theorem leaseInv_release (h : LeaseInv projects leases) {c : Credential} {owned : Lease → Bool}
    {lease : Lease} (now : Int) {tokenHash : String}
    (howned : ∀ l, owned l = true ↔ l.leaseId = c.leaseId ∧ l.projectKey = c.projectKey ∧
      l.fence = c.fence ∧ l.ownerTokenSha256 = tokenHash ∧ l.state = .active)
    (hl : lease ∈ leases) (hlo : owned lease = true) :
    LeaseInv
      (projects.update (fun p => p.projectKey = c.projectKey ∧ p.currentLeaseId = some c.leaseId)
        Project.unheld fun _ _ => ⟨id, id⟩)
      (leases.update owned (Lease.release now) fun _ _ => ⟨id, id⟩) := by
  have hheld := (howned lease).mp hlo
  constructor
  · intro q hq id hid
    obtain ⟨p, hp, rfl⟩ := Table.mem_update.mp hq
    unfold Table.setWhere at hid ⊢
    split at hid
    · simp [Project.unheld] at hid
    · rename_i hmatch
      rw [if_neg hmatch]
      obtain ⟨l, hlm, hlid, hk, hrest⟩ := h.pointer p hp id hid
      refine ⟨l, Table.mem_update.mpr ⟨l, hlm, Table.setWhere_neg ?_⟩, hlid, hk, hrest⟩
      intro hlo'
      have ho := (howned l).mp hlo'
      apply hmatch
      rw [decide_eq_true_eq]
      exact ⟨hk ▸ ho.2.1, by rw [hid, ← hlid, ho.1]⟩
  · intro l hlm
    obtain ⟨b, hb, rfl⟩ := Table.mem_update.mp hlm
    rw [Table.setWhere_column Lease.leaseId _ (Lease.release now) fun _ => rfl]
    exact h.nonempty b hb
  · intro l hlm hact
    obtain ⟨b, hb, rfl⟩ := Table.mem_update.mp hlm
    unfold Table.setWhere at hact ⊢
    split at hact
    · simp [Lease.release] at hact
    · rename_i hno
      rw [if_neg hno]
      obtain ⟨p, hp, hpk, hpc⟩ := h.active b hb hact
      refine ⟨p, Table.mem_update.mpr ⟨p, hp, Table.setWhere_neg ?_⟩, hpk, hpc⟩
      intro hmatch
      rw [decide_eq_true_eq, hpc, Option.some.injEq] at hmatch
      have hbl := lease_eq_of_id hb hl (hmatch.2.trans hheld.1.symm)
      exact hno (hbl ▸ hlo)
  · intro l hlm
    obtain ⟨b, hb, rfl⟩ := Table.mem_update.mp hlm
    rw [Table.setWhere_column Lease.projectKey _ (Lease.release now) fun _ => rfl,
      Table.setWhere_column Lease.fence _ (Lease.release now) fun _ => rfl]
    obtain ⟨p, hp, hpk, hpos, hle⟩ := h.owner b hb
    refine ⟨_, Table.update_mem _ hp, ?_, hpos, ?_⟩
    · rwa [Table.setWhere_column Project.projectKey _ Project.unheld fun _ => rfl]
    · rwa [Table.setWhere_column Project.nextFence _ Project.unheld fun _ => rfl]
  · intro q hq
    obtain ⟨p, hp, rfl⟩ := Table.mem_update.mp hq
    rw [Table.setWhere_column Project.nextFence _ Project.unheld fun _ => rfl,
      Table.setWhere_column Project.projectKey _ Project.unheld fun _ => rfl]
    rcases h.attained p hp with h0 | ⟨l, hlm, hk, hf⟩
    · exact Or.inl h0
    · refine Or.inr ⟨_, Table.update_mem _ hlm, ?_, ?_⟩
      · rwa [Table.setWhere_column Lease.projectKey _ (Lease.release now) fun _ => rfl]
      · rwa [Table.setWhere_column Lease.fence _ (Lease.release now) fun _ => rfl]
  · intro q hq
    obtain ⟨p, hp, rfl⟩ := Table.mem_update.mp hq
    rw [Table.setWhere_column Project.nextFence _ Project.unheld fun _ => rfl]
    exact h.nonneg p hp
  · refine List.pairwise_map.mpr (h.increasing.imp ?_)
    intro a b hab
    rw [Table.setWhere_column Lease.projectKey _ (Lease.release now) fun _ => rfl,
      Table.setWhere_column Lease.projectKey _ (Lease.release now) fun _ => rfl,
      Table.setWhere_column Lease.fence _ (Lease.release now) fun _ => rfl,
      Table.setWhere_column Lease.fence _ (Lease.release now) fun _ => rfl]
    exact hab
  · intro q hq
    obtain ⟨p, hp, rfl⟩ := Table.mem_update.mp hq
    rw [Table.setWhere_column Project.state _ Project.unheld fun _ => rfl,
      Table.setWhere_column Project.recoveryPriorState _ Project.unheld fun _ => rfl]
    exact h.recovery p hp
  · intro q hq
    obtain ⟨p, hp, rfl⟩ := Table.mem_update.mp hq
    rw [Table.setWhere_column Project.recoveryPriorState _ Project.unheld fun _ => rfl]
    exact h.prior p hp

theorem restored_state_ne {p : Project} (hprior : p.recoveryPriorState ≠ some .recovery) :
    p.restored.state ≠ .recovery := by
  cases hs : p.recoveryPriorState with
  | none => simp [Project.restored, hs]
  | some s =>
    intro hrec
    simp only [Project.restored, hs, Option.getD_some] at hrec
    exact hprior (hs.trans (congrArg some hrec))

theorem leaseInv_restore (h : LeaseInv projects leases) {c : Credential} {lease : Lease}
    (hl : lease ∈ leases) (hid : lease.leaseId = c.leaseId)
    (hkey : lease.projectKey = c.projectKey) :
    LeaseInv
      (projects.update (fun p => p.projectKey = c.projectKey ∧ p.currentLeaseId = some c.leaseId)
        Project.restored fun _ _ => ⟨id, id⟩)
      (leases.update (fun l => l.leaseId = c.leaseId) Lease.normalised
        fun _ _ => ⟨id, id⟩) := by
  constructor
  · intro q hq id hcur
    obtain ⟨p, hp, rfl⟩ := Table.mem_update.mp hq
    rw [Table.setWhere_column Project.currentLeaseId _ Project.restored fun _ => rfl] at hcur
    rw [Table.setWhere_column Project.projectKey _ Project.restored fun _ => rfl,
      Table.setWhere_column Project.nextFence _ Project.restored fun _ => rfl]
    obtain ⟨l, hlm, hlid, hk, hact, hf, hph⟩ := h.pointer p hp id hcur
    refine ⟨_, Table.update_mem _ hlm, ?_, ?_, ?_, ?_, ?_⟩
    · rwa [Table.setWhere_column Lease.leaseId _ Lease.normalised fun _ => rfl]
    · rwa [Table.setWhere_column Lease.projectKey _ Lease.normalised fun _ => rfl]
    · rwa [Table.setWhere_column Lease.state _ Lease.normalised fun _ => rfl]
    · rwa [Table.setWhere_column Lease.fence _ Lease.normalised fun _ => rfl]
    · intro hrec
      unfold Table.setWhere at hrec ⊢
      split at hrec
      · exact absurd hrec (restored_state_ne (h.prior p hp))
      · rename_i hmatch
        rw [if_neg]
        · exact hph hrec
        · intro hll
          rw [decide_eq_true_eq] at hll
          apply hmatch
          rw [decide_eq_true_eq]
          have hsame := lease_eq_of_id hlm hl (hll.trans hid.symm)
          exact ⟨by rw [← hk, hsame, hkey], by rw [hcur, ← hlid, hll]⟩
  · intro l hlm
    obtain ⟨b, hb, rfl⟩ := Table.mem_update.mp hlm
    rw [Table.setWhere_column Lease.leaseId _ Lease.normalised fun _ => rfl]
    exact h.nonempty b hb
  · intro l hlm hact
    obtain ⟨b, hb, rfl⟩ := Table.mem_update.mp hlm
    rw [Table.setWhere_column Lease.state _ Lease.normalised fun _ => rfl] at hact
    rw [Table.setWhere_column Lease.leaseId _ Lease.normalised fun _ => rfl,
      Table.setWhere_column Lease.projectKey _ Lease.normalised fun _ => rfl]
    obtain ⟨p, hp, hpk, hpc⟩ := h.active b hb hact
    refine ⟨_, Table.update_mem _ hp, ?_, ?_⟩
    · rwa [Table.setWhere_column Project.projectKey _ Project.restored fun _ => rfl]
    · rwa [Table.setWhere_column Project.currentLeaseId _ Project.restored fun _ => rfl]
  · intro l hlm
    obtain ⟨b, hb, rfl⟩ := Table.mem_update.mp hlm
    rw [Table.setWhere_column Lease.projectKey _ Lease.normalised fun _ => rfl,
      Table.setWhere_column Lease.fence _ Lease.normalised fun _ => rfl]
    obtain ⟨p, hp, hpk, hpos, hle⟩ := h.owner b hb
    refine ⟨_, Table.update_mem _ hp, ?_, hpos, ?_⟩
    · rwa [Table.setWhere_column Project.projectKey _ Project.restored fun _ => rfl]
    · rwa [Table.setWhere_column Project.nextFence _ Project.restored fun _ => rfl]
  · intro q hq
    obtain ⟨p, hp, rfl⟩ := Table.mem_update.mp hq
    rw [Table.setWhere_column Project.nextFence _ Project.restored fun _ => rfl,
      Table.setWhere_column Project.projectKey _ Project.restored fun _ => rfl]
    rcases h.attained p hp with h0 | ⟨l, hlm, hk, hf⟩
    · exact Or.inl h0
    · refine Or.inr ⟨_, Table.update_mem _ hlm, ?_, ?_⟩
      · rwa [Table.setWhere_column Lease.projectKey _ Lease.normalised fun _ => rfl]
      · rwa [Table.setWhere_column Lease.fence _ Lease.normalised fun _ => rfl]
  · intro q hq
    obtain ⟨p, hp, rfl⟩ := Table.mem_update.mp hq
    rw [Table.setWhere_column Project.nextFence _ Project.restored fun _ => rfl]
    exact h.nonneg p hp
  · refine List.pairwise_map.mpr (h.increasing.imp ?_)
    intro a b hab
    rw [Table.setWhere_column Lease.projectKey _ Lease.normalised fun _ => rfl,
      Table.setWhere_column Lease.projectKey _ Lease.normalised fun _ => rfl,
      Table.setWhere_column Lease.fence _ Lease.normalised fun _ => rfl,
      Table.setWhere_column Lease.fence _ Lease.normalised fun _ => rfl]
    exact hab
  · intro q hq
    obtain ⟨p, hp, rfl⟩ := Table.mem_update.mp hq
    unfold Table.setWhere
    split
    · have hne := restored_state_ne (h.prior p hp)
      exact ⟨fun hrec => absurd hrec hne, fun hsome => by simp [Project.restored] at hsome⟩
    · exact h.recovery p hp
  · intro q hq
    obtain ⟨p, hp, rfl⟩ := Table.mem_update.mp hq
    unfold Table.setWhere
    split
    · simp [Project.restored]
    · exact h.prior p hp

end Steps

theorem acquirePhase_recovery {db : Authority} {project : Project}
    (h : project.state = .recovery) : acquirePhase db project = .recovery := by
  unfold acquirePhase
  rw [if_pos (Or.inl h)]

/-- Every effect keeps the two tables in step, whatever snapshot it worked with. -/
theorem effect_leaseInv {request : AuthorityRequest} {info : Meta} {r : Readings}
    {db db' : Authority} (heff : Effect P request info r db db') (h : LeaseInv db.projects db.leases) :
    LeaseInv db'.projects db'.leases := by
  cases heff with
  | unchanged => exact h
  | registered body projects _ hins => exact leaseInv_register h hins
  | leased body tokenHash project _ hmem hwrite =>
    exact leaseInv_grant h hmem rfl rfl rfl r.uuid_ne acquirePhase_recovery hwrite
  | beaten owned now until_ =>
    exact leaseInv_update_same (f := Lease.beat now until_) h (fun _ _ => ⟨id, id⟩)
      fun _ => ⟨rfl, rfl, rfl, rfl, rfl⟩
  | released c tokenHash project lease owned _ _ _ _ howned hl hlo =>
    exact leaseInv_release h r.now howned hl hlo
  | keyCreated => exact h
  | keyFinalized => exact h
  | rotated => exact h
  | issued => exact h
  | imported _ _ _ _ _ _ _ _ _ _ _ _ hwrite =>
    rw [importReceipt_frame hwrite]
    exact h
  | restored c tokenHash lease hlive _ =>
    obtain ⟨hl, hid, hkey, _⟩ := liveLease_spec hlive
    exact leaseInv_restore h hl hid hkey

/-- One call on the authority store. -/
def authorityStep (P : Prims) (db : Authority) (call : AuthorityCall × Readings) : Authority :=
  committed db (authorityRpc P call.1 call.2 db)

/-- The authority store after a sequence of calls on a freshly initialised one. -/
def authorityRun (P : Prims) (clusterId deviceId : String) (leaseSeconds : Int)
    (calls : List (AuthorityCall × Readings)) : Authority :=
  Transition.run (authorityStep P) (Authority.init clusterId deviceId leaseSeconds) calls

theorem authorityStep_leaseInv {db : Authority} (h : LeaseInv db.projects db.leases)
    (call : AuthorityCall × Readings) :
    LeaseInv (authorityStep P db call).projects (authorityStep P db call).leases := by
  unfold authorityStep
  rcases committed_cases db (authorityRpc P call.1 call.2 db) with heq | ⟨response, hok⟩
  · rw [heq]
    exact h
  · obtain ⟨db1, heff, hdb⟩ := authorityRpc_effect hok
    have hinv := effect_leaseInv heff h
    rw [hdb]
    exact hinv

theorem authorityRun_leaseInv (clusterId deviceId : String) (leaseSeconds : Int)
    (calls : List (AuthorityCall × Readings)) :
    LeaseInv (authorityRun P clusterId deviceId leaseSeconds calls).projects
      (authorityRun P clusterId deviceId leaseSeconds calls).leases :=
  Transition.run_invariant (fun db : Authority => LeaseInv db.projects db.leases)
    (fun _ call h _ => authorityStep_leaseInv h call) leaseInv_empty Transition.along_true

/-! ## Credentials that are not current -/

/-- The lease credential of the owner operations. -/
def AuthorityRequest.credential : AuthorityRequest → Option Credential
  | .heartbeat c | .release c | .recoveryComplete c | .recoveryWorklist c => some c
  | .grantIssue body => some body.credential
  | .grantImport body => some body.credential
  | .projectRegister _ | .acquire _ | .targetKeyCreate _ | .targetKeyFinalize _
  | .epochRotate _ => none

/-- The credential does not name the current lease of its project. -/
def Authority.stale (db : Authority) (c : Credential) : Prop :=
  db.currentLeaseId c.projectKey ≠ some c.leaseId

theorem credentialed_stale {db : Authority} {c : Credential} (h : db.stale c)
    (tokenHash : String) (l : Lease) : credentialed db c tokenHash l = false := by
  rw [← Bool.not_eq_true]
  intro hc
  simp only [credentialed, decide_eq_true_eq] at hc
  exact h (hc.1 ▸ hc.2.2.2.2)

theorem liveLease_stale {db : Authority} {c : Credential} (h : db.stale c) (tokenHash : String)
    (now : Int) : liveLease db c tokenHash now = none := by
  have hnone : db.leases.lookup (credentialed db c tokenHash) = none := by
    rw [Table.lookup_eq_none]
    intro l _
    rw [credentialed_stale h]
    simp
  rw [liveLease, hnone]
  rfl

theorem authorityHeartbeat_stale {info : Meta} {db db' : Authority} {c : Credential} {now : Int}
    {response : Response} (hc : db.stale c)
    (h : authorityHeartbeat P c info now db = .ok (db', response)) : db' = db := by
  simp only [authorityHeartbeat, bind_eq_ok] at h
  obtain ⟨tokenHash, _, h⟩ := h
  split at h
  · simp only [pure_eq_ok, Prod.mk.injEq] at h
    exact h.1.symm
  · rename_i lease hlook
    have hsat := Table.lookup_sat hlook
    simp [credentialed_stale hc] at hsat

theorem authorityRelease_stale {db db' : Authority} {c : Credential} {now : Int}
    {response : Response} (hc : db.stale c)
    (h : authorityRelease P c now db = .ok (db', response)) : db' = db := by
  simp only [authorityRelease, bind_eq_ok] at h
  obtain ⟨tokenHash, _, h⟩ := h
  split at h
  · simp only [pure_eq_ok, Prod.mk.injEq] at h
    exact h.1.symm
  · rename_i project hproject
    obtain ⟨hlook, hcur⟩ := Option.filter_eq_some_iff.mp hproject
    refine absurd ?_ hc
    rw [currentLeaseId_eq_some]
    exact ⟨project, (project_mem hlook).1, (project_mem hlook).2, by simpa using hcur⟩

theorem authorityGrantIssue_stale {info : Meta} {r : Readings} {db db' : Authority}
    {body : GrantIssueBody} {response : Response} (hc : db.stale body.credential)
    (h : authorityGrantIssue P body info r db = .ok (db', response)) : db' = db := by
  simp only [authorityGrantIssue, bind_eq_ok, require_eq_ok] at h
  obtain ⟨tokenHash, _, _, _, _, _, h⟩ := h
  split at h
  · simp only [bind_eq_ok, require_eq_ok, pure_eq_ok, Prod.mk.injEq] at h
    obtain ⟨_, _, hdb, _⟩ := h
    exact hdb.symm
  · rw [liveLease_stale hc] at h
    simp only [pure_eq_ok, Prod.mk.injEq] at h
    exact h.1.symm

theorem authorityGrantImport_stale {info : Meta} {db db' : Authority} {body : GrantImportBody}
    {now : Int} {response : Response} (hc : db.stale body.credential)
    (h : authorityGrantImport P body info now db = .ok (db', response)) : db' = db := by
  simp only [authorityGrantImport, bind_eq_ok] at h
  obtain ⟨tokenHash, _, h⟩ := h
  rw [liveLease_stale hc] at h
  simp only [pure_eq_ok, Prod.mk.injEq] at h
  exact h.1.symm

theorem authorityRecoveryComplete_stale {db db' : Authority} {c : Credential} {now : Int}
    {response : Response} (hc : db.stale c)
    (h : authorityRecoveryComplete P c now db = .ok (db', response)) : db' = db := by
  simp only [authorityRecoveryComplete, bind_eq_ok] at h
  obtain ⟨tokenHash, _, h⟩ := h
  rw [liveLease_stale hc] at h
  simp only [pure_eq_ok, Prod.mk.injEq] at h
  exact h.1.symm

theorem authorityRecoveryWorklist_stale {db db' : Authority} {c : Credential} {now : Int}
    {response : Response} (hc : db.stale c)
    (h : authorityRecoveryWorklist P c now db = .ok (db', response)) : db' = db := by
  simp only [authorityRecoveryWorklist, bind_eq_ok] at h
  obtain ⟨tokenHash, _, h⟩ := h
  rw [liveLease_stale hc] at h
  simp only [pure_eq_ok, Prod.mk.injEq] at h
  exact h.1.symm

/-- No owner operation acts on a credential that is not current. -/
theorem authorityOperation_stale {info : Meta} {r : Readings} {db db' : Authority}
    {request : AuthorityRequest} {c : Credential} {response : Response}
    (hreq : request.credential = some c) (hc : db.stale c)
    (h : authorityOperation P request info r db = .ok (db', response)) : db' = db := by
  cases request with
  | projectRegister body => simp [AuthorityRequest.credential] at hreq
  | acquire body => simp [AuthorityRequest.credential] at hreq
  | targetKeyCreate target => simp [AuthorityRequest.credential] at hreq
  | targetKeyFinalize receipt => simp [AuthorityRequest.credential] at hreq
  | epochRotate expected => simp [AuthorityRequest.credential] at hreq
  | heartbeat c' => exact authorityHeartbeat_stale (Option.some.inj hreq ▸ hc) h
  | release c' => exact authorityRelease_stale (Option.some.inj hreq ▸ hc) h
  | grantIssue body => exact authorityGrantIssue_stale (Option.some.inj hreq ▸ hc) h
  | grantImport body => exact authorityGrantImport_stale (Option.some.inj hreq ▸ hc) h
  | recoveryComplete c' => exact authorityRecoveryComplete_stale (Option.some.inj hreq ▸ hc) h
  | recoveryWorklist c' => exact authorityRecoveryWorklist_stale (Option.some.inj hreq ▸ hc) h

/-- A project in recovery keeps its lease, whatever credential asks to release it. -/
theorem authorityRelease_recovery {db db' : Authority} {c : Credential} {now : Int}
    {response : Response} {project : Project} (hp : db.project c.projectKey = some project)
    (hrec : project.state = .recovery)
    (h : authorityRelease P c now db = .ok (db', response)) : db' = db := by
  simp only [authorityRelease, bind_eq_ok] at h
  obtain ⟨tokenHash, _, h⟩ := h
  split at h
  · simp only [pure_eq_ok, Prod.mk.injEq] at h
    exact h.1.symm
  · rename_i found hfound
    obtain ⟨hlook, _⟩ := Option.filter_eq_some_iff.mp hfound
    have hsame : found = project := Option.some.inj (hlook.symm.trans hp)
    rw [if_pos (Or.inl (hsame ▸ hrec))] at h
    simp only [pure_eq_ok, Prod.mk.injEq] at h
    exact h.1.symm

/-- The call left at most its own replay record behind. -/
def Authority.Unmoved (db db' : Authority) : Prop :=
  db' = { db with rpcRequests := db'.rpcRequests }

theorem rpc_unmoved {db : Authority} {call : AuthorityCall} {r : Readings}
    (hop : ∀ db' response, authorityOperation P call.request db.info r db = .ok (db', response) →
      db' = db) :
    db.Unmoved (committed db (authorityRpc P call r db)) := by
  rcases committed_cases db (authorityRpc P call r db) with heq | ⟨response, hok⟩
  · rw [heq]
    rfl
  · generalize committed db (authorityRpc P call r db) = db' at hok
    simp only [authorityRpc, openAuthorityStore, bind_eq_ok, require_eq_ok, pure_eq_ok] at hok
    obtain ⟨_, ⟨_, _, _, _, rfl⟩, hok⟩ := hok
    simp only [authorityTransaction, bind_eq_ok, require_eq_ok] at hok
    obtain ⟨_, _, hok⟩ := hok
    split at hok
    · simp only [bind_eq_ok, require_eq_ok, pure_eq_ok, Prod.mk.injEq] at hok
      obtain ⟨_, _, rfl, _⟩ := hok
      rfl
    · simp only [bind_eq_ok, inserted_eq_ok, pure_eq_ok, Prod.mk.injEq] at hok
      obtain ⟨⟨db1, _⟩, hrun, _, _, rfl, _⟩ := hok
      rw [hop _ _ hrun]
      rfl

/-! ## The discipline -/

/-- The columns of a lease that no operation rewrites. -/
def Lease.identity (l : Lease) : String × String × Int := (l.leaseId, l.projectKey, l.fence)

/-- Leases are only ever appended. -/
theorem effect_lease_rows {request : AuthorityRequest} {info : Meta} {r : Readings}
    {db db' : Authority} (heff : Effect P request info r db db') (h : LeaseInv db.projects db.leases) :
    db.leases.rows.map Lease.identity <+: db'.leases.rows.map Lease.identity := by
  have hupdate : ∀ (p : Lease → Bool) (f : Lease → Lease) (hf : Table.Keeps Lease.Clash f),
      (∀ l, (f l).identity = l.identity) → db.leases.rows.map Lease.identity <+:
        (db.leases.update p f hf).rows.map Lease.identity := by
    intro p f hf hid
    simp only [Table.update, List.map_map, Function.comp_def,
      Table.setWhere_column Lease.identity p f hid]
    exact List.prefix_rfl
  cases heff with
  | leased body tokenHash project _ hmem hwrite =>
    obtain ⟨hrows, _, _⟩ := grantLease_spec h hmem hwrite
    have hsame : ∀ l, (supersede project l).identity = l.identity := by
      intro l
      obtain ⟨hid, hkey, hfence, _⟩ := supersede_columns project l
      rw [Lease.identity, hid, hkey, hfence]
      rfl
    rw [hrows, List.map_append, List.map_map]
    simp only [Function.comp_def, hsame]
    exact List.prefix_append _ _
  | beaten owned now until_ =>
    exact hupdate owned (Lease.beat now until_) (fun _ _ => ⟨id, id⟩) fun _ => rfl
  | released c tokenHash project lease owned =>
    exact hupdate owned (Lease.release r.now) (fun _ _ => ⟨id, id⟩) fun _ => rfl
  | restored c tokenHash lease =>
    exact hupdate _ Lease.normalised (fun _ _ => ⟨id, id⟩) fun _ => rfl
  | imported _ _ _ _ _ _ _ _ _ _ _ _ hwrite =>
    rw [importReceipt_frame hwrite]
  | unchanged => exact List.prefix_rfl
  | registered => exact List.prefix_rfl
  | keyCreated => exact List.prefix_rfl
  | keyFinalized => exact List.prefix_rfl
  | rotated => exact List.prefix_rfl
  | issued => exact List.prefix_rfl

theorem authorityStep_lease_rows {db : Authority} (h : LeaseInv db.projects db.leases)
    (call : AuthorityCall × Readings) : db.leases.rows.map Lease.identity <+:
      (authorityStep P db call).leases.rows.map Lease.identity := by
  unfold authorityStep
  rcases committed_cases db (authorityRpc P call.1 call.2 db) with heq | ⟨response, hok⟩
  · rw [heq]
  · obtain ⟨db1, heff, hdb⟩ := authorityRpc_effect hok
    have hpre := effect_lease_rows heff h
    rw [hdb]
    exact hpre

theorem authorityRun_lease_rows (clusterId deviceId : String) (leaseSeconds : Int)
    (calls more : List (AuthorityCall × Readings)) :
    (authorityRun P clusterId deviceId leaseSeconds calls).leases.rows.map Lease.identity <+:
      (authorityRun P clusterId deviceId leaseSeconds (calls ++ more)).leases.rows.map
        Lease.identity := by
  have hinv := authorityRun_leaseInv (P := P) clusterId deviceId leaseSeconds calls
  rw [authorityRun, authorityRun, Transition.run_append]
  exact Transition.run_climbs (fun db : Authority => LeaseInv db.projects db.leases)
    (fun a b : Authority =>
      a.leases.rows.map Lease.identity <+: b.leases.rows.map Lease.identity)
    (fun _ => List.prefix_rfl) (fun _ _ _ => List.IsPrefix.trans)
    (fun _ call h _ => ⟨authorityStep_leaseInv h call, authorityStep_lease_rows h call⟩)
    hinv Transition.along_true

/-- Who holds a project, and what the holder's and everyone else's credentials can do. -/
structure LeaseDiscipline (P : Prims) (db : Authority) : Prop where
  oneActive : ∀ a ∈ db.leases, ∀ b ∈ db.leases, a.projectKey = b.projectKey →
    a.state = .active → b.state = .active → a = b
  activeIffCurrent : ∀ l ∈ db.leases,
    l.state = .active ↔ db.currentLeaseId l.projectKey = some l.leaseId
  currentExists : ∀ key id, db.currentLeaseId key = some id →
    ∃ l ∈ db.leases, l.leaseId = id ∧ l.projectKey = key
  nextFence : ∀ p ∈ db.projects,
    (p.nextFence = 0 ∧ ∀ l ∈ db.leases, l.projectKey ≠ p.projectKey) ∨
      IsGreatest {f | ∃ l ∈ db.leases, l.projectKey = p.projectKey ∧ l.fence = f} p.nextFence
  fencesIncrease : db.leases.rows.Pairwise fun a b =>
    a.projectKey = b.projectKey → a.fence < b.fence
  recoveryIffPrior : ∀ p ∈ db.projects,
    p.state = .recovery ↔ p.recoveryPriorState.isSome = true
  recoveryPhase : ∀ p ∈ db.projects, p.state = .recovery → ∀ l ∈ db.leases,
    p.currentLeaseId = some l.leaseId → l.phase = .recovery
  recoveryNotReleased : ∀ p ∈ db.projects, p.state = .recovery → ∀ call r c,
    call.request = .release c → c.projectKey = p.projectKey →
      db.Unmoved (committed db (authorityRpc P call r db))
  staleInert : ∀ call r c, call.request.credential = some c → db.stale c →
    db.Unmoved (committed db (authorityRpc P call r db))

theorem LeaseInv.discipline {db : Authority} (h : LeaseInv db.projects db.leases) :
    LeaseDiscipline P db := by
  have hactive : ∀ l ∈ db.leases,
      l.state = .active ↔ db.currentLeaseId l.projectKey = some l.leaseId := by
    intro l hl
    rw [currentLeaseId_eq_some]
    constructor
    · exact h.active l hl
    · rintro ⟨p, hp, _, hcur⟩
      obtain ⟨l', hl', hid, _, hact, _⟩ := h.pointer p hp _ hcur
      rwa [lease_eq_of_id hl hl' hid.symm]
  constructor
  · intro a ha b hb hkey hact hbct
    have hcur := (hactive a ha).mp hact
    rw [hkey, (hactive b hb).mp hbct] at hcur
    exact lease_eq_of_id ha hb (Option.some.inj hcur).symm
  · exact hactive
  · intro key id hcur
    obtain ⟨p, hp, hkey, hid⟩ := currentLeaseId_eq_some.mp hcur
    obtain ⟨l, hl, hlid, hlkey, _⟩ := h.pointer p hp id hid
    exact ⟨l, hl, hlid, hlkey.trans hkey⟩
  · intro p hp
    have hbound : ∀ l ∈ db.leases, l.projectKey = p.projectKey → 0 < l.fence ∧
        l.fence ≤ p.nextFence := by
      intro l hl hkey
      obtain ⟨q, hq, hqkey, hpos, hle⟩ := h.owner l hl
      rw [← project_eq_of_key hq hp (hqkey.trans hkey)]
      exact ⟨hpos, hle⟩
    rcases h.attained p hp with h0 | ⟨l, hl, hkey, hfence⟩
    · refine Or.inl ⟨h0, fun l hl hkey => ?_⟩
      obtain ⟨hpos, hle⟩ := hbound l hl hkey
      omega
    · refine Or.inr ⟨⟨l, hl, hkey, hfence⟩, ?_⟩
      rintro f ⟨l', hl', hkey', rfl⟩
      exact (hbound l' hl' hkey').2
  · exact h.increasing
  · exact h.recovery
  · intro p hp hrec l hl hcur
    obtain ⟨l', hl', hid, _, _, _, hphase⟩ := h.pointer p hp _ hcur
    rw [lease_eq_of_id hl hl' hid.symm]
    exact hphase hrec
  · intro p hp hrec call r c hreq hkey
    apply rpc_unmoved
    intro db' response hop
    rw [hreq] at hop
    exact authorityRelease_recovery (hkey ▸ project_eq_some hp) hrec hop
  · intro call r c hreq hstale
    exact rpc_unmoved fun _ _ hop => authorityOperation_stale hreq hstale hop

/-- Lease exclusivity in every state a sequence of calls reaches, whatever the clocks read;
the leases granted up to a state are the first ones of every later state. -/
theorem authorityRun_lease_discipline (P : Prims) (clusterId deviceId : String)
    (leaseSeconds : Int) (calls : List (AuthorityCall × Readings)) :
    LeaseDiscipline P (authorityRun P clusterId deviceId leaseSeconds calls) ∧
      ∀ more, (authorityRun P clusterId deviceId leaseSeconds calls).leases.rows.map
          Lease.identity <+:
        (authorityRun P clusterId deviceId leaseSeconds (calls ++ more)).leases.rows.map
          Lease.identity :=
  ⟨(authorityRun_leaseInv clusterId deviceId leaseSeconds calls).discipline,
    authorityRun_lease_rows clusterId deviceId leaseSeconds calls⟩

end Remrun.Runner
