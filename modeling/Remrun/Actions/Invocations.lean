import Mathlib.Logic.Function.Basic
import Mathlib.Tactic

/-!
# Target actions

`run_action` stages files into an action's inbox on the target, publishes a running receipt, runs
the configured command and publishes what came of it (`action.py`). Any number of calls share the
target; every transport call is one step, which may fail before or after it takes effect. The
receipt is looked up long before it is published: the command runs at most once in the runs in
which no running receipt is published over another.
-/

namespace Remrun.Actions

set_option autoImplicit false

abbrev Text := List Char

abbrev Bytes := List UInt8

/-! ## Calls -/

structure Input where
  name : Text
  bytes : Bytes
  deriving DecidableEq

/-- A call's key and the files that `_normalized_inputs` accepted. -/
structure Call where
  key : Option Text
  inputs : List Input
  nodup : (inputs.map Input.name).Nodup

/-- What all calls for an action of a device share. -/
structure Site where
  /-- the configured argv -/
  command : List Text
  /-- the expanded inbox -/
  inbox : Text
  nativeJoin : Text → Text → Text
  /-- the file that a path names on the target -/
  file : Text → Text
  sha256 : Bytes → Text
  /-- the digest over the action's name, its table and the inputs -/
  contentId : List Input → Text

def safeName (name : Text) : Bool :=
  name.length ≤ 128 && name.head?.any Char.isAlphanum &&
    name.all fun c => c.isAlphanum || c = '.' || c = '_' || c = '-'

namespace Site
variable (site : Site)

/-- `_action_id`. -/
def actionId (c : Call) : Except String Text :=
  match c.key.filter (· ≠ []) with
  | some key =>
    if safeName key then .ok key
    else .error "--key must be 1-128 letters, digits, dots, underscores, or hyphens"
  | none =>
    if c.inputs = [] then .error "an action without inputs requires --key"
    else .ok (site.contentId c.inputs)

def destination (name : Text) : Text := site.nativeJoin site.inbox name

/-- The file that an input is staged as. -/
def slot (x : Input) : Text := site.file (site.destination x.name)

end Site

/-! ## The command -/

/-- `text.replace(pattern, value)` for a pattern that is not empty; the number counts the characters
of a match that are left. -/
def replaceFrom (pattern value : Text) : Nat → Text → Text
  | _, [] => []
  | n + 1, _ :: cs => replaceFrom pattern value n cs
  | 0, c :: cs =>
    if pattern.isPrefixOf (c :: cs) then value ++ replaceFrom pattern value (pattern.length - 1) cs
    else c :: replaceFrom pattern value 0 cs

/-- The name in a token `{input:name}` that the text begins with. -/
def inputToken (text : Text) : Option Text :=
  if "\x7binput:".toList.isPrefixOf text then
    let rest := text.drop 7
    let name := rest.takeWhile fun c => c ≠ '\x7b' && c ≠ '\x7d'
    if name ≠ [] ∧ (rest.drop name.length).head? = some '\x7d' then some name else none
  else none

/-- `_INPUT_TOKEN.sub(replace_input, token)`. -/
def replaceInputs (destinations : Text → Option Text) : Nat → Text → Option Text
  | _, [] => some []
  | n + 1, _ :: cs => replaceInputs destinations n cs
  | 0, c :: cs =>
    match inputToken (c :: cs) with
    | some name => do
      let path ← destinations name
      let rest ← replaceInputs destinations (name.length + 7) cs
      return path ++ rest
    | none => (replaceInputs destinations 0 cs).map (c :: ·)

/-- `_render_command`: nothing where a token names an input that is not staged. -/
def Site.renderCommand (site : Site) (c : Call) (actionId : Text) : Option (List Text) :=
  site.command.mapM fun raw =>
    let token := replaceFrom "\x7baction_id\x7d".toList actionId 0
      (replaceFrom "\x7binbox\x7d".toList site.inbox 0 raw)
    replaceInputs (fun name => if name ∈ c.inputs.map Input.name then
      some (site.destination name) else none) 0 token

/-! ## The target -/

inductive Status where
  | running
  | complete
  | failed
  deriving DecidableEq

structure Receipt where
  status : Status
  command : List Text
  exitCode : Option Int

abbrev Files := Text → Option Bytes

/-- A run of the command, with the inbox it found. -/
structure Execution where
  command : List Text
  exitCode : Int
  inbox : Files

/-- The receipt and the inbox of one action id. -/
structure Target where
  receipt : Option Receipt
  inbox : Files
  executions : List Execution

inductive Answer where
  | complete
  | failed (exitCode : Int)
  | alreadyComplete
  | refused (status : Status)
  | conflict (name : Text)
  | unreachable
  | ambiguous
  deriving DecidableEq

/-- The transport call that a call of `run_action` makes next. -/
inductive Phase where
  | probing
  | makingInbox
  | makingReceiptDir
  | lookingUp
  | reading
  | checking (input : Input) (rest : List Input)
  | comparing (input : Input) (rest : List Input)
  | pushing (input : Input) (rest : List Input)
  | publishing (command : List Text)
  | executing (command : List Text)
  | concluding (command : List Text) (exitCode : Int)
  | answered (answer : Answer)

/-- How a transport call ends. A check for existence answers no where its command fails. -/
inductive Event where
  | returns
  | unconfirmed
  | lost
  | cut
  | ran (exitCode : Int) (inbox : Files)
  | cutRan (exitCode : Int) (inbox : Files)

/-- The calls that compute one action id. -/
structure Scene (ι : Type) where
  site : Site
  actionId : Text
  calls : ι → Call
  same_id : ∀ i, site.actionId (calls i) = .ok actionId

namespace Scene
variable {ι : Type} (scene : Scene ι)

/-- What comes after an input: the next one, or the command. -/
def nextInput (i : ι) : List Input → Phase
  | x :: rest => .checking x rest
  | [] =>
    match scene.site.renderCommand (scene.calls i) scene.actionId with
    | some command => .publishing command
    | none => .answered .ambiguous

def published (t : Target) (command : List Text) : Target :=
  { t with receipt := some ⟨.running, command, none⟩ }

def pushed (t : Target) (x : Input) : Target :=
  { t with inbox := Function.update t.inbox (scene.site.slot x) (some x.bytes) }

def executed (t : Target) (command : List Text) (exitCode : Int) (inbox : Files) : Target :=
  { t with executions := t.executions ++ [⟨command, exitCode, t.inbox⟩], inbox := inbox }

def outcomeOf (exitCode : Int) : Status := if exitCode = 0 then .complete else .failed

def concluded (t : Target) (command : List Text) (exitCode : Int) : Target :=
  { t with receipt := some ⟨outcomeOf exitCode, command, some exitCode⟩ }

/-- The answer to a receipt that is there. -/
def answerTo (receipt : Receipt) : Answer :=
  match receipt.status with
  | .complete => .alreadyComplete
  | .running => .refused .running
  | .failed => .refused .failed

/-- One transport call of a call. -/
def step (i : ι) (t : Target) : Phase → Event → Option (Phase × Target)
  | .answered _, _ => none
  | .probing, .lost => some (.answered .unreachable, t)
  | .probing, .returns => some (.makingInbox, t)
  | .makingInbox, .returns => some (.makingReceiptDir, t)
  | .makingReceiptDir, .returns => some (.lookingUp, t)
  | .lookingUp, .returns =>
    some (if t.receipt.isSome then .reading else scene.nextInput i (scene.calls i).inputs, t)
  | .lookingUp, .unconfirmed => some (scene.nextInput i (scene.calls i).inputs, t)
  | .reading, .returns =>
    match t.receipt with
    | some receipt => some (.answered (answerTo receipt), t)
    | none => some (.answered .ambiguous, t)
  | .checking x rest, .returns =>
    some (if (t.inbox (scene.site.slot x)).isSome then .comparing x rest else .pushing x rest, t)
  | .checking x rest, .unconfirmed => some (.pushing x rest, t)
  | .comparing x rest, .returns =>
    match t.inbox (scene.site.slot x) with
    | some bytes =>
      if scene.site.sha256 bytes = scene.site.sha256 x.bytes then some (scene.nextInput i rest, t)
      else some (.answered (.conflict x.name), t)
    | none => some (.answered .ambiguous, t)
  | .pushing x rest, .returns => some (scene.nextInput i rest, scene.pushed t x)
  | .pushing x _, .cut => some (.answered .ambiguous, scene.pushed t x)
  | .publishing command, .returns => some (.executing command, published t command)
  | .publishing command, .cut => some (.answered .ambiguous, published t command)
  | .executing command, .ran exitCode inbox =>
    some (.concluding command exitCode, executed t command exitCode inbox)
  | .executing command, .cutRan exitCode inbox =>
    some (.answered .ambiguous, executed t command exitCode inbox)
  | .concluding command exitCode, .returns =>
    some (.answered (if exitCode = 0 then .complete else .failed exitCode),
      concluded t command exitCode)
  | .concluding command exitCode, .cut =>
    some (.answered .ambiguous, concluded t command exitCode)
  | _, .lost => some (.answered .ambiguous, t)
  | _, .cut => some (.answered .ambiguous, t)
  | _, _ => none

end Scene

/-! ## Runs -/

structure System (ι : Type) where
  target : Target
  phases : ι → Phase

section Runs
variable {ι : Type} [DecidableEq ι] (scene : Scene ι)

/-- Nothing was published; the inbox may have files. -/
def System.start (inbox : Files) : System ι where
  target := ⟨none, inbox, []⟩
  phases _ := .probing

def Scene.next (s : System ι) (i : ι) (event : Event) : Option (System ι) :=
  (scene.step i s.target (s.phases i) event).map fun (phase, target) =>
    ⟨target, Function.update s.phases i phase⟩

/-- What a call is about to publish is not published over another receipt. -/
def System.Fresh (s : System ι) (i : ι) : Prop :=
  ∀ command, s.phases i = .publishing command → s.target.receipt = none

/-- The states of the runs in which every step is from a state of the condition. -/
inductive Scene.Reaches (scene : Scene ι) (condition : System ι → ι → Prop) : System ι → Prop where
  | start (inbox : Files) : Reaches scene condition (.start inbox)
  | next {s s' : System ι} {i : ι} {event : Event} (h : Reaches scene condition s)
      (hcondition : condition s i) (hnext : scene.next s i event = some s') :
      Reaches scene condition s'

/-- The calls stage the same files, and no two of their inputs are staged in one place with
different bytes. -/
structure Scene.Agreeing : Prop where
  same_bytes : ∀ i j, ∀ x ∈ (scene.calls i).inputs, ∀ y ∈ (scene.calls j).inputs,
    scene.site.slot x = scene.site.slot y → x.bytes = y.bytes
  same_slots : ∀ i j, ∀ x ∈ (scene.calls i).inputs, ∃ y ∈ (scene.calls j).inputs,
    scene.site.slot x = scene.site.slot y

end Runs

/-! ## What a step does -/

/-- The command runs, or ran for this call. -/
def Phase.Active : Phase → Prop
  | .executing _ | .concluding _ _ => True
  | _ => False

/-- The call answered that the action is complete. -/
def Phase.Done : Phase → Prop
  | .answered .complete | .answered .alreadyComplete => True
  | _ => False

/-- Neither. -/
structure Phase.Quiet (p : Phase) : Prop where
  active : ¬ p.Active
  done : ¬ p.Done

namespace Scene
variable {ι : Type} {scene : Scene ι} {i : ι} {t t' : Target} {p p' : Phase}

/-- The inputs that a call has not staged so far. -/
def todo (scene : Scene ι) (i : ι) : Phase → List Input
  | .checking x rest | .comparing x rest | .pushing x rest => x :: rest
  | .publishing _ | .executing _ => []
  | _ => (scene.calls i).inputs

/-- Everything a step can do to the target, and what the call has then still to do. -/
inductive Change (scene : Scene ι) (i : ι) : Phase → Target → Phase → Target → Prop where
  | quiet {p p' : Phase} {t : Target} (hquiet : p'.Quiet)
      (htodo : ∀ x ∈ (scene.calls i).inputs, x ∉ scene.todo i p' →
        x ∉ scene.todo i p ∨ t.inbox (scene.site.slot x) = some x.bytes)
      (hsub : scene.todo i p ⊆ (scene.calls i).inputs →
        scene.todo i p' ⊆ (scene.calls i).inputs) :
      Change scene i p t p' t
  | found {p : Phase} {t : Target} {receipt : Receipt} (hreceipt : t.receipt = some receipt)
      (hstatus : receipt.status = .complete) :
      Change scene i p t (.answered .alreadyComplete) t
  | pushed {p p' : Phase} {t : Target} {x : Input} (hquiet : p'.Quiet) (hx : x ∈ scene.todo i p)
      (htodo : ∀ y ∈ (scene.calls i).inputs, y ∉ scene.todo i p' → y ∉ scene.todo i p ∨ y = x)
      (hsub : scene.todo i p ⊆ (scene.calls i).inputs →
        scene.todo i p' ⊆ (scene.calls i).inputs) :
      Change scene i p t p' (scene.pushed t x)
  | published {p' : Phase} {t : Target} {command : List Text}
      (hp : p' = .executing command ∨ p' = .answered .ambiguous) :
      Change scene i (.publishing command) t p' (published t command)
  | executed {p' : Phase} {t : Target} {command : List Text} {exitCode : Int} {inbox : Files}
      (hp : p' = .concluding command exitCode ∨ p' = .answered .ambiguous) :
      Change scene i (.executing command) t p' (executed t command exitCode inbox)
  | concluded {p' : Phase} {t : Target} {command : List Text} {exitCode : Int}
      (hp : (p' = .answered .complete ∧ exitCode = 0) ∨ ∃ a, p' = .answered a ∧ p'.Quiet) :
      Change scene i (.concluding command exitCode) t p' (concluded t command exitCode)

theorem quiet_answered {a : Answer} (h : a ≠ .complete) (h' : a ≠ .alreadyComplete) :
    (Phase.answered a).Quiet where
  active := id
  done hdone := by
    cases a <;> simp_all [Phase.Done]

/-- An answer leaves everything to be staged. -/
theorem change_answered {a : Answer} (h : a ≠ .complete) (h' : a ≠ .alreadyComplete) :
    Change scene i p t (.answered a) t :=
  .quiet (quiet_answered h h') (fun x hx hnot => absurd hx hnot) fun _ => List.Subset.refl _

theorem change_ambiguous : Change scene i p t (.answered .ambiguous) t :=
  change_answered (by decide) (by decide)

theorem quiet_nextInput (rest : List Input) : (scene.nextInput i rest).Quiet := by
  cases rest with
  | cons x rest => exact ⟨id, id⟩
  | nil =>
    unfold nextInput
    cases scene.site.renderCommand (scene.calls i) scene.actionId with
    | none => exact ⟨id, id⟩
    | some command => exact ⟨id, id⟩

theorem notMem_rest {rest : List Input} {x : Input} (hx : x ∈ (scene.calls i).inputs)
    (h : x ∉ scene.todo i (scene.nextInput i rest)) : x ∉ rest := by
  cases rest with
  | cons y rest => exact h
  | nil => exact List.not_mem_nil

theorem todo_nextInput {rest : List Input} (h : rest ⊆ (scene.calls i).inputs) :
    scene.todo i (scene.nextInput i rest) ⊆ (scene.calls i).inputs := by
  cases rest with
  | cons y rest => exact h
  | nil =>
    unfold nextInput
    cases scene.site.renderCommand (scene.calls i) scene.actionId with
    | none => exact List.Subset.refl _
    | some command => exact List.nil_subset _

/-- Nothing is staged by a step from a phase before staging to the first input. -/
theorem change_begin (hp : scene.todo i p = (scene.calls i).inputs) :
    Change scene i p t (scene.nextInput i (scene.calls i).inputs) t :=
  .quiet (quiet_nextInput _) (fun x hx hnot => absurd hx (notMem_rest hx hnot))
    fun _ => todo_nextInput (List.Subset.refl _)

theorem change_same (hquiet : p'.Quiet) (hp : scene.todo i p' = scene.todo i p) :
    Change scene i p t p' t :=
  .quiet hquiet (fun _ _ hnot => .inl (hp ▸ hnot)) fun h => hp ▸ h

/-- A step from an input to what comes after it, with the input found on the target. -/
theorem change_compared {x : Input} {rest : List Input}
    (hx : t.inbox (scene.site.slot x) = some x.bytes) :
    Change scene i (.comparing x rest) t (scene.nextInput i rest) t := by
  refine .quiet (quiet_nextInput rest) (fun y hy hnot => ?_) fun h =>
    todo_nextInput fun y hy => h (List.mem_cons_of_mem x hy)
  have hrest := notMem_rest hy hnot
  by_cases heq : y = x
  · exact .inr (heq ▸ hx)
  · refine .inl fun hmem => ?_
    rcases List.mem_cons.mp hmem with h | h
    · exact heq h
    · exact hrest h

theorem change_pushed {x : Input} {rest : List Input} :
    Change scene i (.pushing x rest) t (scene.nextInput i rest) (scene.pushed t x) := by
  refine .pushed (quiet_nextInput rest) List.mem_cons_self (fun y hy hnot => ?_) fun h =>
    todo_nextInput fun y hy => h (List.mem_cons_of_mem x hy)
  have hrest := notMem_rest hy hnot
  by_cases heq : y = x
  · exact .inr heq
  · refine .inl fun hmem => ?_
    rcases List.mem_cons.mp hmem with h | h
    · exact heq h
    · exact hrest h

theorem change_of_step (hsha : Function.Injective scene.site.sha256) {event : Event}
    (h : scene.step i t p event = some (p', t')) : Change scene i p t p' t' := by
  cases p with
  | answered a => cases h
  | probing =>
    cases event <;> cases h
    · exact change_same ⟨id, id⟩ rfl
    · exact change_answered (by decide) (by decide)
    · exact change_ambiguous
  | makingInbox | makingReceiptDir =>
    cases event <;> cases h
    · exact change_same ⟨id, id⟩ rfl
    · exact change_ambiguous
    · exact change_ambiguous
  | lookingUp =>
    cases event <;> cases h
    · split
      · exact change_same ⟨id, id⟩ rfl
      · exact change_begin rfl
    · exact change_begin rfl
    · exact change_ambiguous
    · exact change_ambiguous
  | reading =>
    cases event with
    | returns =>
      simp only [step] at h
      cases hreceipt : t.receipt with
      | none =>
        simp only [hreceipt] at h
        cases h
        exact change_ambiguous
      | some receipt =>
        simp only [hreceipt] at h
        cases h
        cases hstatus : receipt.status with
        | complete =>
          simp only [answerTo, hstatus]
          exact .found hreceipt hstatus
        | running =>
          simp only [answerTo, hstatus]
          exact change_answered (by decide) (by decide)
        | failed =>
          simp only [answerTo, hstatus]
          exact change_answered (by decide) (by decide)
    | lost | cut =>
      cases h
      exact change_ambiguous
    | unconfirmed | ran exitCode inbox | cutRan exitCode inbox => cases h
  | checking x rest =>
    cases event <;> cases h
    · split
      · exact change_same ⟨id, id⟩ rfl
      · exact change_same ⟨id, id⟩ rfl
    · exact change_same ⟨id, id⟩ rfl
    · exact change_ambiguous
    · exact change_ambiguous
  | comparing x rest =>
    cases event with
    | returns =>
      simp only [step] at h
      cases hinbox : t.inbox (scene.site.slot x) with
      | none =>
        simp only [hinbox] at h
        cases h
        exact change_ambiguous
      | some bytes =>
        simp only [hinbox] at h
        split at h
        · rename_i hdigest
          cases h
          exact change_compared (hinbox.trans (congrArg some (hsha hdigest)))
        · cases h
          exact change_answered (by simp) (by simp)
    | lost | cut =>
      cases h
      exact change_ambiguous
    | unconfirmed | ran exitCode inbox | cutRan exitCode inbox => cases h
  | pushing x rest =>
    cases event <;> cases h
    · exact change_pushed
    · exact change_ambiguous
    · exact .pushed (quiet_answered (by decide) (by decide)) List.mem_cons_self
        (fun y hy hnot => absurd hy hnot) fun _ => List.Subset.refl _
  | publishing command =>
    cases event <;> cases h
    · exact .published (.inl rfl)
    · exact change_ambiguous
    · exact .published (.inr rfl)
  | executing command =>
    cases event <;> cases h
    · exact change_ambiguous
    · exact change_ambiguous
    · exact .executed (.inl rfl)
    · exact .executed (.inr rfl)
  | concluding command exitCode =>
    cases event <;> cases h
    · refine .concluded ?_
      split
      · exact .inl ⟨rfl, ‹_›⟩
      · exact .inr ⟨_, rfl, quiet_answered (by simp) (by simp)⟩
    · exact change_ambiguous
    · exact .concluded (.inr ⟨_, rfl, quiet_answered (by decide) (by decide)⟩)

end Scene

/-! ## The invariant -/

section Invariant
variable {ι : Type} {scene : Scene ι}

/-- The inputs of every call are there. -/
def Scene.Staged (scene : Scene ι) (files : Files) : Prop :=
  ∀ i, ∀ x ∈ (scene.calls i).inputs, files (scene.site.slot x) = some x.bytes

/-- The command succeeded on the inputs of every call. -/
def Scene.Succeeded (scene : Scene ι) (t : Target) : Prop :=
  ∃ e ∈ t.executions, e.exitCode = 0 ∧ scene.Staged e.inbox

structure Scene.Inv (scene : Scene ι) (t : Target) (phases : ι → Phase) : Prop where
  once : t.executions.length ≤ 1
  unpublished : t.receipt = none → t.executions = [] ∧ ∀ i, ¬ (phases i).Active
  active_unique : ∀ i j, (phases i).Active → (phases j).Active → i = j
  executing : ∀ i command, phases i = .executing command → t.executions = []
  concluding : ∀ i command exitCode, phases i = .concluding command exitCode →
    ∃ e ∈ t.executions, e.exitCode = exitCode ∧ scene.Staged e.inbox
  completed : ∀ receipt, t.receipt = some receipt → receipt.status = .complete →
    scene.Succeeded t
  done : ∀ i, (phases i).Done → scene.Succeeded t
  staged : t.executions = [] → ∀ i, ∀ x ∈ (scene.calls i).inputs,
    x ∉ scene.todo i (phases i) → t.inbox (scene.site.slot x) = some x.bytes
  todo_sub : ∀ i, scene.todo i (phases i) ⊆ (scene.calls i).inputs

/-- The files of one call are the files of all. -/
theorem Scene.Agreeing.staged (hagree : scene.Agreeing) {files : Files} {i : ι}
    (h : ∀ x ∈ (scene.calls i).inputs, files (scene.site.slot x) = some x.bytes) :
    scene.Staged files := by
  intro j x hx
  obtain ⟨y, hy, hslot⟩ := hagree.same_slots j i x hx
  rw [hslot, h y hy, hagree.same_bytes j i x hx y hy hslot]

theorem Scene.Succeeded.mono {t t' : Target} (h : scene.Succeeded t)
    (hsub : t.executions ⊆ t'.executions) : scene.Succeeded t' := by
  obtain ⟨e, he, hcode, hstaged⟩ := h
  exact ⟨e, hsub he, hcode, hstaged⟩

variable [DecidableEq ι]

/-- The phases after a step of `i`. -/
theorem active_update {phases : ι → Phase} {i j : ι} {p : Phase} (hp : ¬ p.Active)
    (h : (Function.update phases i p j).Active) : j ≠ i ∧ (phases j).Active := by
  by_cases hj : j = i
  · subst hj
    rw [Function.update_self] at h
    exact absurd h hp
  · rw [Function.update_of_ne hj] at h
    exact ⟨hj, h⟩

omit [DecidableEq ι] in
theorem inv_start (inbox : Files) :
    scene.Inv (System.start (ι := ι) inbox).target (System.start (ι := ι) inbox).phases where
  once := Nat.zero_le 1
  unpublished _ := ⟨rfl, fun _ => id⟩
  active_unique _ _ h := h.elim
  executing _ _ h := by cases h
  concluding _ _ _ h := by cases h
  completed _ h := by cases h
  done _ h := h.elim
  staged _ _ _ hx hnot := absurd hx hnot
  todo_sub _ := List.Subset.refl _

/-- A step that leaves the receipt and the executions. -/
theorem Scene.Inv.calm {t t' : Target} {phases : ι → Phase} (h : scene.Inv t phases) {i : ι}
    {p' : Phase} (hp' : ¬ p'.Active) (hdone : p'.Done → scene.Succeeded t)
    (hreceipt : t'.receipt = t.receipt)
    (hexecutions : t'.executions = t.executions)
    (hstaged : t.executions = [] → ∀ j, ∀ x ∈ (scene.calls j).inputs,
      x ∉ scene.todo j (Function.update phases i p' j) →
        t'.inbox (scene.site.slot x) = some x.bytes)
    (hsub : scene.todo i p' ⊆ (scene.calls i).inputs) :
    scene.Inv t' (Function.update phases i p') := by
  have hactive : ∀ {j}, (Function.update phases i p' j).Active → (phases j).Active :=
    fun hj => (active_update hp' hj).2
  have hother : ∀ {j}, (Function.update phases i p' j).Active →
      Function.update phases i p' j = phases j := fun hj =>
    Function.update_of_ne (active_update hp' hj).1 _ _
  have hsucceeded : scene.Succeeded t → scene.Succeeded t' := fun hs =>
    hs.mono (hexecutions ▸ List.Subset.refl _)
  constructor
  · rw [hexecutions]
    exact h.once
  · intro hnone
    rw [hreceipt] at hnone
    rw [hexecutions]
    exact ⟨(h.unpublished hnone).1, fun j hj => (h.unpublished hnone).2 j (hactive hj)⟩
  · exact fun j k hj hk => h.active_unique j k (hactive hj) (hactive hk)
  · intro j command hj
    rw [hexecutions]
    exact h.executing j command (hother (by rw [hj]; trivial) ▸ hj)
  · intro j command exitCode hj
    rw [hexecutions]
    exact h.concluding j command exitCode (hother (by rw [hj]; trivial) ▸ hj)
  · intro receipt hsome hstatus
    exact hsucceeded (h.completed receipt (hreceipt ▸ hsome) hstatus)
  · intro j hj
    by_cases hji : j = i
    · subst hji
      rw [Function.update_self] at hj
      exact hsucceeded (hdone hj)
    · rw [Function.update_of_ne hji] at hj
      exact hsucceeded (h.done j hj)
  · intro hnil
    exact hstaged (hexecutions ▸ hnil)
  · intro j
    by_cases hji : j = i
    · subst hji
      rw [Function.update_self]
      exact hsub
    · rw [Function.update_of_ne hji]
      exact h.todo_sub j

/-- A step of a call beside which no call is active. -/
theorem Scene.Inv.act {t t' : Target} {phases : ι → Phase} (h : scene.Inv t phases) {i : ι}
    {p' : Phase} (hsole : ∀ j, j ≠ i → ¬ (phases j).Active) (honce : t'.executions.length ≤ 1)
    (hreceipt : t'.receipt = none → ¬ p'.Active ∧ t'.executions = [])
    (hexecuting : ∀ command, p' = .executing command → t'.executions = [])
    (hconcluding : ∀ command exitCode, p' = .concluding command exitCode →
      ∃ e ∈ t'.executions, e.exitCode = exitCode ∧ scene.Staged e.inbox)
    (hcompleted : ∀ receipt, t'.receipt = some receipt → receipt.status = .complete →
      scene.Succeeded t')
    (hdone : p'.Done → scene.Succeeded t') (hmono : t.executions ⊆ t'.executions)
    (hstaged : t'.executions = [] → t'.inbox = t.inbox ∧
      ∀ x ∈ (scene.calls i).inputs, x ∉ scene.todo i p' → x ∉ scene.todo i (phases i))
    (hsub : scene.todo i p' ⊆ (scene.calls i).inputs) :
    scene.Inv t' (Function.update phases i p') := by
  have hself : Function.update phases i p' i = p' := Function.update_self ..
  have hother : ∀ {j}, j ≠ i → Function.update phases i p' j = phases j := fun hj =>
    Function.update_of_ne hj ..
  have hactive : ∀ j, (Function.update phases i p' j).Active → j = i := by
    intro j hj
    by_contra hji
    rw [hother hji] at hj
    exact hsole j hji hj
  constructor
  · exact honce
  · intro hnone
    refine ⟨(hreceipt hnone).2, fun j hj => ?_⟩
    have hji := hactive j hj
    subst hji
    rw [hself] at hj
    exact (hreceipt hnone).1 hj
  · exact fun j k hj hk => (hactive j hj).trans (hactive k hk).symm
  · intro j command hj
    have hji := hactive j (by rw [hj]; trivial)
    subst hji
    exact hexecuting command (hself ▸ hj)
  · intro j command exitCode hj
    have hji := hactive j (by rw [hj]; trivial)
    subst hji
    exact hconcluding command exitCode (hself ▸ hj)
  · exact hcompleted
  · intro j hj
    by_cases hji : j = i
    · subst hji
      exact hdone (hself ▸ hj)
    · exact (h.done j (hother hji ▸ hj)).mono hmono
  · intro hnil j x hx hnot
    have hbefore : t.executions = [] := List.subset_nil.mp (hnil ▸ hmono)
    rw [(hstaged hnil).1]
    by_cases hji : j = i
    · subst hji
      rw [hself] at hnot
      exact h.staged hbefore j x hx ((hstaged hnil).2 x hx hnot)
    · rw [hother hji] at hnot
      exact h.staged hbefore j x hx hnot
  · intro j
    by_cases hji : j = i
    · subst hji
      rw [hself]
      exact hsub
    · rw [hother hji]
      exact h.todo_sub j

omit [DecidableEq ι] in
theorem Scene.Inv.sole {t : Target} {phases : ι → Phase} (h : scene.Inv t phases) {i : ι}
    (hi : (phases i).Active) {j : ι} (hj : j ≠ i) : ¬ (phases j).Active :=
  fun hactive => hj (h.active_unique j i hactive hi)

theorem Scene.Inv.published {t : Target} {phases : ι → Phase} (h : scene.Inv t phases) {i : ι}
    {p' : Phase} {command : List Text} (hi : phases i = .publishing command)
    (hnone : t.receipt = none) (hp : p' = .executing command ∨ p' = .answered .ambiguous) :
    scene.Inv (published t command) (Function.update phases i p') := by
  obtain ⟨hnil, hactive⟩ := h.unpublished hnone
  refine h.act (fun j _ => hactive j) h.once (fun hsome => by cases hsome) (fun _ _ => hnil)
    ?_ ?_ ?_ (List.Subset.refl _) (fun _ => ⟨rfl, fun x _ _ => ?_⟩) ?_
  · rintro command' exitCode rfl
    rcases hp with hp | hp <;> cases hp
  · intro receipt hsome hstatus
    cases hsome
    cases hstatus
  · intro hdone
    rcases hp with rfl | rfl <;> exact hdone.elim
  · rw [hi]
    exact List.not_mem_nil
  · rcases hp with rfl | rfl
    · exact List.nil_subset _
    · exact List.Subset.refl _

theorem Scene.Inv.executed (hagree : scene.Agreeing) {t : Target} {phases : ι → Phase}
    (h : scene.Inv t phases) {i : ι} {p' : Phase} {command : List Text} {exitCode : Int}
    {inbox : Files} (hi : phases i = .executing command)
    (hp : p' = .concluding command exitCode ∨ p' = .answered .ambiguous) :
    scene.Inv (executed t command exitCode inbox) (Function.update phases i p') := by
  have hnil := h.executing i command hi
  have hactive : (phases i).Active := by rw [hi]; trivial
  have hstaged : scene.Staged t.inbox := hagree.staged (i := i) fun x hx =>
    h.staged hnil i x hx (by rw [hi]; exact List.not_mem_nil)
  have hlast : (⟨command, exitCode, t.inbox⟩ : Execution) ∈
      (Scene.executed t command exitCode inbox).executions :=
    List.mem_append_right _ List.mem_cons_self
  have hmono : t.executions ⊆ (Scene.executed t command exitCode inbox).executions :=
    List.subset_append_left _ _
  refine h.act (fun j hj => h.sole hactive hj) ?_ ?_ ?_ ?_ ?_ ?_ hmono ?_ ?_
  · simp [Scene.executed, hnil]
  · intro hnone
    exact absurd hactive ((h.unpublished hnone).2 i)
  · rintro command' rfl
    rcases hp with hp | hp <;> cases hp
  · rintro command' exitCode' rfl
    rcases hp with hp | hp
    · cases hp
      exact ⟨_, hlast, rfl, hstaged⟩
    · cases hp
  · intro receipt hsome hstatus
    exact (h.completed receipt hsome hstatus).mono hmono
  · intro hdone
    rcases hp with rfl | rfl <;> exact hdone.elim
  · intro hempty
    rw [hempty] at hlast
    exact absurd hlast List.not_mem_nil
  · rcases hp with rfl | rfl <;> exact List.Subset.refl _

theorem Scene.Inv.concluded {t : Target} {phases : ι → Phase} (h : scene.Inv t phases) {i : ι}
    {p' : Phase} {command : List Text} {exitCode : Int}
    (hi : phases i = .concluding command exitCode)
    (hp : (p' = .answered .complete ∧ exitCode = 0) ∨ ∃ a, p' = .answered a ∧ p'.Quiet) :
    scene.Inv (concluded t command exitCode) (Function.update phases i p') := by
  have hactive : (phases i).Active := by rw [hi]; trivial
  obtain ⟨e, he, hcode, hstaged⟩ := h.concluding i command exitCode hi
  have hzero : exitCode = 0 → scene.Succeeded (Scene.concluded t command exitCode) :=
    fun hzero => ⟨e, he, hcode.trans hzero, hstaged⟩
  obtain ⟨a, ha⟩ : ∃ a, p' = .answered a := by
    rcases hp with ⟨hp, -⟩ | ⟨a, hp, -⟩
    · exact ⟨_, hp⟩
    · exact ⟨a, hp⟩
  subst ha
  refine h.act (fun j hj => h.sole hactive hj) h.once (fun hnone => by cases hnone)
    (fun _ heq => by cases heq) (fun _ _ heq => by cases heq) ?_ ?_ (List.Subset.refl _) ?_
    (List.Subset.refl _)
  · intro receipt hsome hstatus
    cases hsome
    apply hzero
    by_contra hne
    simp [outcomeOf, hne] at hstatus
  · intro hdone
    rcases hp with ⟨-, hp⟩ | ⟨_, -, hquiet⟩
    · exact hzero hp
    · exact absurd hdone hquiet.done
  · intro hempty
    have hnil : t.executions = [] := hempty
    rw [hnil] at he
    exact absurd he List.not_mem_nil

/-- What one step keeps. -/
theorem Scene.Inv.next (hagree : scene.Agreeing) {t t' : Target} {phases : ι → Phase}
    (h : scene.Inv t phases) {i : ι} {p p' : Phase} (hi : phases i = p)
    (hfresh : ∀ command, p = .publishing command → t.receipt = none)
    (hchange : scene.Change i p t p' t') :
    scene.Inv t' (Function.update phases i p') := by
  have hstaged := h.staged
  cases hchange with
  | quiet hquiet htodo hsub =>
    subst hi
    refine h.calm hquiet.active (fun hdone => absurd hdone hquiet.done) rfl rfl
      (fun hnil j x hx hnot => ?_) (hsub (h.todo_sub i))
    by_cases hji : j = i
    · subst hji
      rw [Function.update_self] at hnot
      rcases htodo x hx hnot with hnot | hinbox
      · exact hstaged hnil j x hx hnot
      · exact hinbox
    · rw [Function.update_of_ne hji] at hnot
      exact hstaged hnil j x hx hnot
  | found hreceipt hstatus =>
    refine h.calm id (fun _ => h.completed _ hreceipt hstatus) rfl rfl
      (fun hnil j x hx hnot => ?_) (List.Subset.refl _)
    by_cases hji : j = i
    · subst hji
      rw [Function.update_self] at hnot
      exact absurd hx hnot
    · rw [Function.update_of_ne hji] at hnot
      exact hstaged hnil j x hx hnot
  | @pushed _ _ _ x hquiet hx htodo hsub =>
    subst hi
    refine h.calm hquiet.active (fun hdone => absurd hdone hquiet.done) rfl rfl
      (fun hnil j y hy hnot => ?_) (hsub (h.todo_sub i))
    by_cases hslot : scene.site.slot y = scene.site.slot x
    · have hbytes := hagree.same_bytes j i y hy x (h.todo_sub i hx) hslot
      rw [hslot, hbytes]
      exact Function.update_self ..
    · have hinbox : (scene.pushed t x).inbox (scene.site.slot y) =
          t.inbox (scene.site.slot y) := Function.update_of_ne hslot ..
      rw [hinbox]
      by_cases hji : j = i
      · subst hji
        rw [Function.update_self] at hnot
        rcases htodo y hy hnot with hnot | rfl
        · exact hstaged hnil j y hy hnot
        · exact absurd rfl hslot
      · rw [Function.update_of_ne hji] at hnot
        exact hstaged hnil j y hy hnot
  | published hp => exact h.published hi (hfresh _ rfl) hp
  | executed hp => exact h.executed hagree hi hp
  | concluded hp => exact h.concluded hi hp

/-- What every run keeps in which no running receipt is published over another. -/
theorem inv_of_reaches (hsha : Function.Injective scene.site.sha256) (hagree : scene.Agreeing)
    {s : System ι} (h : scene.Reaches System.Fresh s) : scene.Inv s.target s.phases := by
  induction h with
  | start inbox => exact inv_start inbox
  | @next s s' i event _ hfresh hnext ih =>
    obtain ⟨⟨p', t'⟩, hstep, rfl⟩ := Option.map_eq_some_iff.mp hnext
    exact ih.next hagree rfl hfresh (Scene.change_of_step hsha hstep)

end Invariant

/-! ## Calls without a key -/

section Unkeyed
variable {ι : Type} {scene : Scene ι}

theorem unkeyed_inputs (hid : Function.Injective scene.site.contentId)
    (hkey : ∀ i, (scene.calls i).key.filter (· ≠ []) = none) (i j : ι) :
    (scene.calls i).inputs = (scene.calls j).inputs := by
  have hone : ∀ i, scene.site.contentId (scene.calls i).inputs = scene.actionId := by
    intro i
    have h := scene.same_id i
    simp only [Site.actionId, hkey i] at h
    split at h
    · cases h
    · exact Except.ok.inj h
  exact hid ((hone i).trans (hone j).symm)

/-- Calls that name no key agree on their inputs: the action id is a digest of them. -/
theorem agreeing_of_unkeyed (hid : Function.Injective scene.site.contentId)
    (hslot : ∀ x y : Input, scene.site.slot x = scene.site.slot y → x.name = y.name)
    (hkey : ∀ i, (scene.calls i).key.filter (· ≠ []) = none) : scene.Agreeing where
  same_bytes i j x hx y hy hsame := by
    rw [unkeyed_inputs hid hkey j i] at hy
    exact congrArg Input.bytes
      (List.inj_on_of_nodup_map (scene.calls i).nodup hx hy (hslot x y hsame))
  same_slots i j x hx := ⟨x, unkeyed_inputs hid hkey i j ▸ hx, rfl⟩

end Unkeyed

/-! ## At most once -/

section Main
variable {ι : Type} [DecidableEq ι] {scene : Scene ι}

/-- Where no running receipt is published over another, the command runs at most once, and a call
that answers complete had its inputs staged for a run that succeeded. -/
theorem action_runs_once (hsha : Function.Injective scene.site.sha256) (hagree : scene.Agreeing)
    {s : System ι} (h : scene.Reaches System.Fresh s) :
    s.target.executions.length ≤ 1 ∧
      ∀ i, s.phases i = .answered .complete ∨ s.phases i = .answered .alreadyComplete →
        ∃ e ∈ s.target.executions, e.exitCode = 0 ∧
          ∀ x ∈ (scene.calls i).inputs, e.inbox (scene.site.slot x) = some x.bytes := by
  have hinv := inv_of_reaches hsha hagree h
  refine ⟨hinv.once, fun i hi => ?_⟩
  have hdone : (s.phases i).Done := by
    rcases hi with hi | hi <;> (rw [hi]; trivial)
  obtain ⟨e, he, hcode, hstaged⟩ := hinv.done i hdone
  exact ⟨e, he, hcode, hstaged i⟩

/-- The steps of a list in order, each of them from a state of the condition. -/
def Scene.run (scene : Scene ι) (condition : System ι → ι → Bool) :
    System ι → List (ι × Event) → Option (System ι)
  | s, [] => some s
  | s, (i, event) :: rest =>
    if condition s i then (scene.next s i event).bind fun s' => scene.run condition s' rest
    else none

theorem reaches_of_run {check : System ι → ι → Bool} {condition : System ι → ι → Prop}
    (hcheck : ∀ s i, check s i = true → condition s i) {steps : List (ι × Event)}
    {s s' : System ι} (h : scene.Reaches condition s) (hrun : scene.run check s steps = some s') :
    scene.Reaches condition s' := by
  induction steps generalizing s with
  | nil =>
    cases hrun
    exact h
  | cons step rest ih =>
    obtain ⟨i, event⟩ := step
    unfold Scene.run at hrun
    split at hrun
    · rename_i hcond
      obtain ⟨mid, hnext, hrest⟩ := Option.bind_eq_some_iff.mp hrun
      exact ih (.next h (hcheck s i hcond) hnext) hrest
    · cases hrun

end Main

/-- The condition of `Fresh`, computed. -/
def fresh {ι : Type} (s : System ι) (i : ι) : Bool :=
  match s.phases i with
  | .publishing _ => s.target.receipt.isNone
  | _ => true

theorem fresh_of_eq_true {ι : Type} (s : System ι) (i : ι) (h : fresh s i = true) :
    s.Fresh i := by
  intro command hphase
  simp only [fresh, hphase] at h
  exact Option.isNone_iff_eq_none.mp h

/-! ## Two calls -/

/-- A target that knows its files by name; no digest is taken below. -/
def sampleSite : Site where
  command := [['r', 'u', 'n']]
  inbox := ['i', 'n']
  nativeJoin _ name := name
  file := id
  sha256 bytes := bytes.map fun b => Char.ofNat b.toNat
  contentId _ := ['k']

def sampleInput : Input := ⟨['a'], [1, 2]⟩

/-- Calls with one key and one input. -/
def sampleScene (ι : Type) : Scene ι where
  site := sampleSite
  actionId := ['k']
  calls _ := ⟨some ['k'], [sampleInput], by decide⟩
  same_id _ := by decide +kernel

theorem sample_sha256 : Function.Injective sampleSite.sha256 := by
  have hbyte : ∀ n < 256, (Char.ofNat n).toNat = n := by decide +kernel
  refine List.map_injective_iff.mpr fun a b h => ?_
  have hnat := congrArg Char.toNat h
  simp only [hbyte a.toNat a.toNat_lt, hbyte b.toNat b.toNat_lt] at hnat
  exact UInt8.toNat_inj.mp hnat

theorem sample_agreeing (ι : Type) : (sampleScene ι).Agreeing where
  same_bytes _ _ x hx y hy _ := by
    rw [List.mem_singleton.mp hx, List.mem_singleton.mp hy]
  same_slots _ _ x hx := ⟨x, hx, rfl⟩

/-- What a call does until it has staged its input. -/
def staging {ι : Type} (i : ι) : List (ι × Event) := List.replicate 6 (i, .returns)

/-- What it does then. -/
def running {ι : Type} (i : ι) : List (ι × Event) :=
  [(i, .returns), (i, .ran 0 fun _ => none), (i, .returns)]

theorem action_runs_once_alone : ∃ s : System Unit, (sampleScene Unit).Reaches System.Fresh s ∧
    s.phases () = .answered .complete ∧ s.target.executions.length = 1 ∧
    ∃ e ∈ s.target.executions, e.exitCode = 0 ∧ e.inbox ['a'] = some [1, 2] := by
  have hreaches := reaches_of_run fresh_of_eq_true (.start fun _ => none)
    (rfl : (sampleScene Unit).run fresh (.start fun _ => none) (staging () ++ running ()) = some _)
  obtain ⟨honce, hdone⟩ := action_runs_once sample_sha256 (sample_agreeing Unit) hreaches
  obtain ⟨e, he, hcode, hstaged⟩ := hdone () (.inl rfl)
  exact ⟨_, hreaches, rfl, rfl, e, he, hcode, hstaged sampleInput List.mem_cons_self⟩

/-- Two calls look the receipt up before either publishes one, and both run the command. -/
theorem twoCalls_run_twice : ¬ ∀ (scene : Scene Bool) (s : System Bool),
    scene.Reaches (fun _ _ => True) s → s.target.executions.length ≤ 1 := by
  intro h
  have hreaches := reaches_of_run (fun _ _ _ => trivial) (.start fun _ => none)
    (rfl : (sampleScene Bool).run (fun _ _ => true) (.start fun _ => none)
      (staging false ++ staging true ++ running false ++ running true) = some _)
  exact absurd (h _ _ hreaches) (by decide)

end Remrun.Actions
