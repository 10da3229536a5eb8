import TheokitGateways.WhatsApp.Web.Lifecycle

/-!
# The lock of a session

Whatever hosts there are and whatever the system does between their calls, only
processes that carry the tag of the bridge are signalled, but for one that was
given the id of a tagged process after that one had been looked at
(`only_bridges_signalled`). As long as no two hosts start or terminate a bridge at
once, and none stops before the lock file is written, one bridge at most runs
without having been asked to exit, and the lock file names it (`one_bridge`).
-/

namespace TheokitGateways.WhatsApp.Web
open Js Async Prog Transition

namespace Os

variable {w v : Os} {k : Nat} {p q : Process} {pid : JsNumber} {procfs : Bool} {c : OsCall}
  {d : Decision}

/-! ### Processes -/

theorem running_eq_some (h : w.running pid = some (k, p)) :
    w.processes[k]? = some p ∧ p.running = true ∧ pid = .finite p.pid := by
  unfold running at h
  split at h
  · rename_i j hfind
    obtain ⟨q, hq, heq⟩ := Option.map_eq_some_iff.1 h
    cases heq
    obtain ⟨hlt, hat, _⟩ := List.findIdx?_eq_some_iff_getElem.1 hfind
    rw [List.getElem?_eq_getElem hlt] at hq
    cases hq
    obtain ⟨hrunning, hpid⟩ := Bool.and_eq_true_iff.1 hat
    exact ⟨List.getElem?_eq_getElem hlt, hrunning, of_decide_eq_true hpid⟩
  · cases h

theorem running_eq_none (h : w.running pid = none) (hk : w.processes[k]? = some p)
    (hrunning : p.running = true) : pid ≠ .finite p.pid := by
  rintro rfl
  unfold running at h
  split at h
  · rename_i j hfind
    obtain ⟨hlt, _⟩ := List.findIdx?_eq_some_iff_getElem.1 hfind
    rw [List.getElem?_eq_getElem hlt] at h
    cases h
  · rename_i hfind
    have hat := List.findIdx?_eq_none_iff.1 hfind p (List.mem_of_getElem? hk)
    simp [isAt, hrunning] at hat

theorem getElem?_modifyProcess {f : Process → Process} {j : Nat}
    (h : (w.modifyProcess k f).processes[j]? = some q) :
    ∃ p, w.processes[j]? = some p ∧ q = if k = j then f p else p := by
  rw [modifyProcess, List.getElem?_modify] at h
  obtain ⟨p, hp, rfl⟩ := Option.map_eq_some_iff.1 h
  exact ⟨p, hp, rfl⟩

theorem getElem?_start (h : (w.start p).processes[k]? = some q) :
    w.processes[k]? = some q ∨ k = w.processes.length ∧ q = p := by
  rw [start, List.getElem?_append] at h
  split at h
  · exact .inl h
  · rename_i hle
    obtain ⟨hsub, rfl⟩ : k - w.processes.length = 0 ∧ q = p := by
      cases hsub : k - w.processes.length with
      | zero =>
        rw [hsub] at h
        cases h
        exact ⟨rfl, rfl⟩
      | succ n =>
        rw [hsub] at h
        cases h
    exact .inr ⟨by omega, rfl⟩

/-- What the system and the hosts keep of the processes. -/
structure Sane (w : Os) : Prop where
  distinct : ∀ (i j : Nat) (p q : Process), w.processes[i]? = some p →
    w.processes[j]? = some q → p.running = true → q.running = true → p.pid = q.pid → i = j
  tagged : ∀ (k : Nat) (p : Process), w.processes[k]? = some p → p.bridge = true →
    includes bridgeProcessTag p.cmdline = true ∧ includes bridgeProcessTag p.args = true
  fits : ∀ (k : Nat) (p : Process), w.processes[k]? = some p → 0 < p.pid ∧ p.pid < 2147483648
  killed : ∀ (k : Nat) (p : Process), w.processes[k]? = some p → p.killed = true →
    p.signalled = true

theorem sane_init : Sane {} where
  distinct _ _ _ _ h := by simp at h
  tagged _ _ h := by simp at h
  fits _ _ h := by simp at h
  killed _ _ h := by simp at h

theorem Sane.of_processes (h : w.Sane) (heq : v.processes = w.processes) : v.Sane := by
  obtain ⟨hdistinct, htagged, hfits, hkilled⟩ := h
  rw [← heq] at hdistinct htagged hfits hkilled
  exact ⟨hdistinct, htagged, hfits, hkilled⟩

theorem Sane.start (h : w.Sane) (hfree : w.isFree p.pid = true)
    (htagged : p.bridge = true →
      includes bridgeProcessTag p.cmdline = true ∧ includes bridgeProcessTag p.args = true)
    (hkilled : p.killed = true → p.signalled = true) : (w.start p).Sane := by
  simp only [isFree, Bool.and_eq_true, decide_eq_true_eq, Option.isNone_iff_eq_none] at hfree
  obtain ⟨⟨hpos, hlt⟩, hnone⟩ := hfree
  refine ⟨fun i j q r hi hj hq hr hpid => ?_, fun k q hk hq => ?_, fun k q hk => ?_,
    fun k q hk hq => ?_⟩
  · obtain hold | ⟨rfl, rfl⟩ := getElem?_start hi <;>
      obtain hold' | ⟨rfl, rfl⟩ := getElem?_start hj
    · exact h.distinct i j q r hold hold' hq hr hpid
    · exact absurd (by rw [hpid]) (running_eq_none hnone hold hq)
    · exact absurd (by rw [hpid]) (running_eq_none hnone hold' hr)
    · rfl
  · obtain hk | ⟨_, rfl⟩ := getElem?_start hk
    · exact h.tagged k q hk hq
    · exact htagged hq
  · obtain hk | ⟨_, rfl⟩ := getElem?_start hk
    · exact h.fits k q hk
    · exact ⟨hpos, hlt⟩
  · obtain hk | ⟨_, rfl⟩ := getElem?_start hk
    · exact h.killed k q hk hq
    · exact hkilled hq

theorem Sane.modifyProcess (h : w.Sane) {f : Process → Process}
    (hpid : ∀ p, (f p).pid = p.pid ∧ (f p).argv = p.argv ∧ (f p).bridge = p.bridge)
    (hrunning : ∀ p, (f p).running = true → p.running = true)
    (hkilled : ∀ p, (p.killed = true → p.signalled = true) → (f p).killed = true →
      (f p).signalled = true) : (w.modifyProcess k f).Sane := by
  have hsame (j : Nat) (q : Process) (hq : (w.modifyProcess k f).processes[j]? = some q) :
      ∃ p, w.processes[j]? = some p ∧ q.pid = p.pid ∧ q.argv = p.argv ∧ q.bridge = p.bridge ∧
        (q.running = true → p.running = true) := by
    obtain ⟨p, hp, rfl⟩ := getElem?_modifyProcess hq
    refine ⟨p, hp, ?_⟩
    split
    · exact ⟨(hpid p).1, (hpid p).2.1, (hpid p).2.2, hrunning p⟩
    · exact ⟨rfl, rfl, rfl, id⟩
  refine ⟨fun i j q r hi hj hq hr heq => ?_, fun j q hj hq => ?_, fun j q hj => ?_,
    fun j q hj hq => ?_⟩
  · obtain ⟨p, hp, hppid, _, _, hprun⟩ := hsame i q hi
    obtain ⟨p', hp', hppid', _, _, hprun'⟩ := hsame j r hj
    exact h.distinct i j p p' hp hp' (hprun hq) (hprun' hr) (by rw [← hppid, heq, hppid'])
  · obtain ⟨p, hp, _, hargv, hbridge, _⟩ := hsame j q hj
    rw [Process.cmdline, Process.args, hargv]
    exact h.tagged j p hp (hbridge ▸ hq)
  · obtain ⟨p, hp, hppid, _⟩ := hsame j q hj
    rw [hppid]
    exact h.fits j p hp
  · obtain ⟨p, hp, rfl⟩ := getElem?_modifyProcess hj
    split at hq
    · rw [if_pos ‹_›]
      exact hkilled p (h.killed j p hp) hq
    · rw [if_neg ‹_›]
      exact h.killed j p hp hq

theorem Sane.signal (h : w.Sane) (byHost : Bool) : (w.signal k byHost).Sane := by
  have hsane : (w.modifyProcess k fun p =>
      { p with signalled := true, killed := p.killed || byHost }).Sane :=
    h.modifyProcess (fun _ => ⟨rfl, rfl, rfl⟩) (fun _ => id) fun _ _ _ => rfl
  exact hsane.of_processes rfl

theorem Sane.happens {happening : Happening} (h : w.Sane)
    (hhappens : w.happens happening = some v) : v.Sane := by
  cases happening with
  | started pid argv =>
    obtain ⟨hfree, heq⟩ := Option.ite_none_right_eq_some.1 hhappens
    cases heq
    exact h.start hfree (fun hbridge => nomatch hbridge) fun hkilled => nomatch hkilled
  | exited k =>
    obtain ⟨_, heq⟩ := Option.ite_none_right_eq_some.1 hhappens
    cases heq
    exact h.modifyProcess (fun _ => ⟨rfl, rfl, rfl⟩) (fun _ hrunning => nomatch hrunning)
      fun _ => id

/-! ### Calls -/

/-- A bridge is spawned with the arguments of one. -/
def IsHostCall : OsCall → Prop
  | .spawn argv => ∃ bridgeScriptPath sessionId, argv = bridgeArgv bridgeScriptPath sessionId
  | _ => True

theorem includes_between (a s b : JsString) : includes s (a ++ (s ++ b)) = true := by
  induction a with
  | nil =>
    have hprefix : s.isPrefixOf (s ++ b) = true :=
      List.isPrefixOf_iff_prefix.2 (List.prefix_append s b)
    cases hs : s ++ b with
    | nil =>
      rw [hs] at hprefix
      exact hprefix
    | cons c cs =>
      rw [hs] at hprefix
      rw [List.nil_append, includes, hprefix]
      rfl
  | cons c a ih =>
    rw [List.cons_append, includes, ih, Bool.or_true]

theorem tagged_bridgeArgv (hargv : IsHostCall (.spawn p.argv)) :
    includes bridgeProcessTag p.cmdline = true ∧ includes bridgeProcessTag p.args = true := by
  obtain ⟨bridgeScriptPath, sessionId, hargv⟩ := hargv
  have hcmdline : p.cmdline = (js "node" ++ [0] ++ bridgeScriptPath ++ [0] ++ js "--tag" ++ [0]) ++
      (bridgeProcessTag ++ ([0] ++ js "--session" ++ [0] ++ sessionId ++ [0])) := by
    rw [Process.cmdline, hargv]
    simp [bridgeArgv]
  have hargs : p.args = (js "node" ++ js " " ++ bridgeScriptPath ++ js " " ++ js "--tag" ++
    js " ") ++
      (bridgeProcessTag ++ (js " " ++ js "--session" ++ js " " ++ sessionId ++ js "\n")) := by
    rw [Process.args, hargv]
    simp [bridgeArgv, List.intercalate]
  rw [hcmdline, hargs]
  exact ⟨includes_between _ _ _, includes_between _ _ _⟩

/-- The calls that change no process and not the lock. -/
def isCalm : OsCall → Bool
  | .spawn _ | .kill _ | .signal .. | .unlinkLock | .writeLock _ => false
  | _ => true

/-- They are at most recorded. -/
theorem exec_calm (procfs : Bool) (w : Os) (d : Decision) (hc : isCalm c = true) :
    ∃ log, (exec procfs w c d).2 = { w with log } ∧ ∀ note ∈ w.log, note ∈ log := by
  have hself : ∃ log, w = { w with log } ∧ ∀ note ∈ w.log, note ∈ log := ⟨w.log, rfl, fun _ => id⟩
  have hshown (k : Nat) : ∃ log, w.shown k = { w with log } ∧ ∀ note ∈ w.log, note ∈ log :=
    ⟨_, rfl, fun _ => List.mem_cons_of_mem _⟩
  cases c with
  | mkdir | lockExists | killed | waitForExit => exact hself
  | readLock =>
    simp only [exec]
    split <;> exact hself
  | readCmdline pid | ps pid =>
    simp only [exec]
    split
    · split
      · exact hshown _
      · exact hself
    · exact hself
  | spawn | kill | signal | unlinkLock | writeLock => cases hc

/-- The arguments that are shown are those of the process that runs under the id. -/
theorem exec_readCmdline_ok {cmdline : JsString}
    (h : (exec procfs w (.readCmdline pid) d).1 = .ok cmdline) :
    ∃ k p, w.running pid = some (k, p) ∧ cmdline = p.cmdline ∧
      (exec procfs w (.readCmdline pid) d).2 = w.shown k := by
  simp only [exec] at h ⊢
  cases hp : w.running pid with
  | none =>
    rw [hp] at h
    cases h
  | some found =>
    obtain ⟨k, p⟩ := found
    simp only [hp] at h ⊢
    split at h
    · cases h
      rw [if_pos ‹_›]
      exact ⟨k, p, rfl, rfl, rfl⟩
    · cases h

theorem exec_ps_ok {out : JsString} (h : (exec procfs w (.ps pid) d).1 = .ok out) :
    ∃ k p, w.running pid = some (k, p) ∧ out = p.args ∧
      (exec procfs w (.ps pid) d).2 = w.shown k := by
  simp only [exec] at h ⊢
  cases hp : w.running pid with
  | none =>
    rw [hp] at h
    cases h
  | some found =>
    obtain ⟨k, p⟩ := found
    simp only [hp] at h ⊢
    split at h
    · cases h
      rw [if_pos ‹_›]
      exact ⟨k, p, rfl, rfl, rfl⟩
    · cases h

theorem Sane.exec (h : w.Sane) (hc : IsHostCall c) : (exec procfs w c d).2.Sane := by
  by_cases hcalm : isCalm c = true
  · obtain ⟨log, heq, _⟩ := exec_calm procfs w d hcalm
    rw [heq]
    exact h.of_processes rfl
  cases c with
  | unlinkLock | writeLock text =>
    simp only [Os.exec]
    split
    · exact h.of_processes rfl
    · exact h
  | kill pid =>
    simp only [Os.exec]
    split
    · split
      · exact h.signal false
      · exact h
    · exact h
  | signal k s =>
    simp only [Os.exec]
    split
    · exact h.signal true
    · exact h
  | spawn argv =>
    simp only [Os.exec]
    split
    · obtain ⟨_, hfree⟩ := Bool.and_eq_true_iff.1 ‹_›
      exact h.start hfree (fun _ => tagged_bridgeArgv hc) fun hkilled => nomatch hkilled
    · exact h
  | _ => exact absurd rfl hcalm

/-! ### What is signalled -/

/-- Processes are started and exit, and stay what they are. -/
structure Grows (w v : Os) : Prop where
  kept : ∀ (k : Nat) (p : Process), w.processes[k]? = some p → ∃ q, v.processes[k]? = some q ∧
    q.pid = p.pid ∧ q.argv = p.argv ∧ q.bridge = p.bridge ∧ (q.running = true → p.running = true)
  log : ∀ note ∈ w.log, note ∈ v.log

theorem Grows.refl (w : Os) : Grows w w where
  kept _ p hk := ⟨p, hk, rfl, rfl, rfl, id⟩
  log _ := id

theorem Grows.trans {u : Os} (h : Grows u w) (h' : Grows w v) : Grows u v where
  kept k p hk := by
    obtain ⟨q, hq, hpid, hargv, hbridge, hrunning⟩ := h.kept k p hk
    obtain ⟨r, hr, hpid', hargv', hbridge', hrunning'⟩ := h'.kept k q hq
    exact ⟨r, hr, hpid'.trans hpid, hargv'.trans hargv, hbridge'.trans hbridge,
      fun hrun => hrunning (hrunning' hrun)⟩
  log note hnote := h'.log note (h.log note hnote)

theorem Grows.length_le (h : Grows w v) : w.processes.length ≤ v.processes.length := by
  refine Nat.le_of_not_lt fun hlt => ?_
  obtain ⟨q, hq, _⟩ := h.kept v.processes.length _ (List.getElem?_eq_getElem hlt)
  rw [List.getElem?_eq_none (Nat.le_refl _)] at hq
  cases hq

/-- A process of later was there before, or has been started since. -/
theorem Grows.before (h : Grows w v) (hk : v.processes[k]? = some q)
    (hlt : k < w.processes.length) : ∃ p, w.processes[k]? = some p ∧ q.pid = p.pid ∧
      q.argv = p.argv ∧ q.bridge = p.bridge ∧ (q.running = true → p.running = true) := by
  obtain ⟨q', hq', hsame⟩ := h.kept k _ (List.getElem?_eq_getElem hlt)
  cases hk.symm.trans hq'
  exact ⟨_, List.getElem?_eq_getElem hlt, hsame⟩

theorem grows_modifyProcess {f : Process → Process} {log : List Note}
    (hsame : ∀ p, (f p).pid = p.pid ∧ (f p).argv = p.argv ∧ (f p).bridge = p.bridge ∧
      ((f p).running = true → p.running = true)) (hlog : ∀ note ∈ w.log, note ∈ log) :
    Grows w { w.modifyProcess k f with log } where
  kept j p hj := by
    refine ⟨if k = j then f p else p, ?_, ?_⟩
    · show (w.processes.modify k f)[j]? = _
      rw [List.getElem?_modify, hj]
      rfl
    · split
      · exact hsame p
      · exact ⟨rfl, rfl, rfl, id⟩
  log := hlog

theorem grows_start (w : Os) (p : Process) : Grows w (w.start p) where
  kept k q hk := by
    refine ⟨q, ?_, rfl, rfl, rfl, id⟩
    obtain ⟨hlt, _⟩ := List.getElem?_eq_some_iff.1 hk
    rw [start, List.getElem?_append_left hlt, hk]
  log _ := id

theorem grows_happens {happening : Happening} (h : w.happens happening = some v) : Grows w v := by
  cases happening with
  | started pid argv =>
    obtain ⟨_, heq⟩ := Option.ite_none_right_eq_some.1 h
    cases heq
    exact grows_start w _
  | exited k =>
    obtain ⟨_, heq⟩ := Option.ite_none_right_eq_some.1 h
    cases heq
    exact grows_modifyProcess (fun p => ⟨rfl, rfl, rfl, fun hrun => nomatch hrun⟩) fun _ => id

theorem grows_signal (w : Os) (k : Nat) (byHost : Bool) : Grows w (w.signal k byHost) :=
  grows_modifyProcess (fun _ => ⟨rfl, rfl, rfl, id⟩) fun _ => List.mem_cons_of_mem _

theorem grows_exec (procfs : Bool) (w : Os) (c : OsCall) (d : Decision) :
    Grows w (exec procfs w c d).2 := by
  by_cases hcalm : isCalm c = true
  · obtain ⟨log, heq, hlog⟩ := exec_calm procfs w d hcalm
    rw [heq]
    exact ⟨(Grows.refl w).kept, hlog⟩
  cases c with
  | unlinkLock | writeLock text =>
    simp only [exec]
    split
    · exact ⟨(Grows.refl w).kept, fun _ => id⟩
    · exact .refl w
  | kill pid =>
    simp only [exec]
    split
    · split
      · exact grows_signal w _ false
      · exact .refl w
    · exact .refl w
  | signal k s =>
    simp only [exec]
    split
    · exact grows_signal w k true
    · exact .refl w
  | spawn argv =>
    simp only [exec]
    split
    · exact grows_start w _
    · exact .refl w
  | _ => exact absurd rfl hcalm

/-- A tagged process of an id was looked at, when so many processes had been started. -/
def HasShown (w : Os) (pid n : Nat) : Prop :=
  ∃ j q, .shown j n ∈ w.log ∧ w.processes[j]? = some q ∧ q.pid = pid ∧ q.IsTagged

theorem Grows.isTagged {p q : Process} (hargv : q.argv = p.argv) (h : p.IsTagged) :
    q.IsTagged := by
  rw [Process.IsTagged, Process.cmdline, Process.args, hargv]
  exact h

theorem Grows.hasShown {pid n : Nat} (h : Grows w v) (hshown : w.HasShown pid n) :
    v.HasShown pid n := by
  obtain ⟨j, q, hnote, hq, hpid, htagged⟩ := hshown
  obtain ⟨r, hr, hpid', hargv, _⟩ := h.kept j q hq
  exact ⟨j, r, h.log _ hnote, hr, hpid'.trans hpid, isTagged hargv htagged⟩

/-- What is signalled carries the tag, or has taken the id of a process that does since that one
was looked at. -/
structure Justified (w : Os) : Prop extends w.Sane where
  signals : ∀ k, .signalled k ∈ w.log → ∃ p, w.processes[k]? = some p ∧
    (p.IsTagged ∨ ∃ n ≤ k, w.HasShown p.pid n)

theorem Justified.grows (h : w.Justified) (hgrows : Grows w v) (hsane : v.Sane)
    (hsignals : ∀ k, .signalled k ∈ v.log → .signalled k ∈ w.log ∨ ∃ p, w.processes[k]? = some p ∧
      (p.IsTagged ∨ ∃ n ≤ k, w.HasShown p.pid n)) : v.Justified := by
  refine ⟨hsane, fun k hk => ?_⟩
  obtain ⟨p, hp, hwhy⟩ := (hsignals k hk).elim (h.signals k) id
  obtain ⟨q, hq, hpid, hargv, _⟩ := hgrows.kept k p hp
  refine ⟨q, hq, hwhy.imp (Grows.isTagged hargv) ?_⟩
  rintro ⟨n, hn, hshown⟩
  exact ⟨n, hn, hpid ▸ hgrows.hasShown hshown⟩

/-- What a host relies on, and what it guarantees. -/
structure Evolves (w v : Os) : Prop where
  grows : Grows w v
  justified : w.Justified → v.Justified

/-- A host among others. -/
def besides (procfs : Bool) : Setting (exec procfs) where
  may _ _ := True
  rely := Evolves
  guar := Evolves
  before _ _ := True
  refl w := ⟨.refl w, id⟩
  trans h h' := ⟨h.grows.trans h'.grows, fun hu => h'.justified (h.justified hu)⟩

theorem stable_justified : (besides procfs).Stable Justified := fun _ _ hrely => hrely.justified

/-- A call that signals nothing. -/
def IsQuiet (c : OsCall) : Prop :=
  IsHostCall c ∧ (∀ pid, c ≠ .kill pid) ∧ ∀ k s, c ≠ .signal k s

theorem justified_exec (h : w.Justified) (hc : IsQuiet c) : (exec procfs w c d).2.Justified := by
  obtain ⟨hhost, hkill, hsignal⟩ := hc
  refine h.grows (grows_exec procfs w c d) (h.toSane.exec hhost) fun k hk => .inl ?_
  cases c with
  | mkdir | lockExists | killed | waitForExit => exact hk
  | readLock | unlinkLock | writeLock | spawn =>
    simp only [exec] at hk
    split at hk <;> exact hk
  | readCmdline pid | ps pid =>
    simp only [exec] at hk
    split at hk
    · split at hk
      · exact (List.mem_cons.1 hk).resolve_left fun heq => nomatch heq
      · exact hk
    · exact hk
  | kill pid => exact absurd rfl (hkill pid)
  | signal k s => exact absurd rfl (hsignal k s)

theorem evolves_exec (hc : IsQuiet c) : Evolves w (exec procfs w c d).2 :=
  ⟨grows_exec procfs w c d, fun h => justified_exec h hc⟩

/-- A program that signals nothing keeps what is signalled justified. -/
theorem keeps_of_quiet {α : Type} {p : OsProg α} (hp : p.CallsIn IsQuiet) (hw : w.Justified) :
    p.Keeps (besides procfs) (fun _ => Justified) w :=
  keeps_of_callsIn stable_justified
    (fun _ _ hc hv => ⟨trivial, fun _ _ => ⟨evolves_exec hc, justified_exec hv hc⟩⟩) hp hw

/-- A tagged process of an id was looked at, and another one of that id has been started since. -/
def Checked (pid : JsNumber) (w : Os) : Prop :=
  ∃ j q n, .shown j n ∈ w.log ∧ w.processes[j]? = some q ∧ q.IsTagged ∧ pid = .finite q.pid ∧
    n ≤ w.processes.length ∧ ∀ (k : Nat) (p : Process), w.processes[k]? = some p →
      p.running = true → pid = .finite p.pid → k = j ∨ n ≤ k

theorem Grows.checked (h : Grows w v) (hchecked : Checked pid w) : Checked pid v := by
  obtain ⟨j, q, n, hnote, hq, htagged, hpid, hn, hlater⟩ := hchecked
  obtain ⟨r, hr, hsame, hargv, _⟩ := h.kept j q hq
  refine ⟨j, r, n, h.log _ hnote, hr, isTagged hargv htagged, hsame ▸ hpid,
    Nat.le_trans hn h.length_le, fun k p hk hrunning heq => ?_⟩
  by_cases hlt : k < w.processes.length
  · obtain ⟨p', hp', hpid', _, _, hrunning'⟩ := h.before hk hlt
    exact hlater k p' hp' (hrunning' hrunning) (hpid' ▸ heq)
  · exact .inr (by omega)

/-- The process whose arguments are shown carries the tag. -/
theorem checked_shown (hw : w.Sane) (hp : w.running pid = some (k, p)) (htagged : p.IsTagged) :
    Checked pid (w.shown k) := by
  obtain ⟨hk, hrunning, hpid⟩ := running_eq_some hp
  refine ⟨k, p, w.processes.length, List.mem_cons_self, hk, htagged, hpid, Nat.le_refl _,
    fun j q hj hq heq => .inl ?_⟩
  have hsame : (p.pid : Rat) = q.pid := JsNumber.finite.inj (hpid.symm.trans heq)
  exact hw.distinct j k q p hj hk hq hrunning (Rat.natCast_inj.1 hsame.symm)

theorem keeps_pidBelongsToOurBridge (hw : w.Justified) :
    (pidBelongsToOurBridge pid).Keeps (besides procfs)
      (fun r v => v.Justified ∧ (r = .ok true → Checked pid v)) w := by
  have hend (b : Bool) : (besides procfs).Stable
      fun v => v.Justified ∧ ((.ok b : Except OsError Bool) = .ok true → Checked pid v) :=
    fun _ _ hrely h => ⟨hrely.justified h.1, fun hb => hrely.grows.checked (h.2 hb)⟩
  have hquiet (c : OsCall) (hc : IsQuiet c) (v : Os) (hv : v.Justified) :
      ∀ d, Evolves v (exec procfs v c d).2 ∧ (exec procfs v c d).2.Justified :=
    fun d => ⟨evolves_exec hc, justified_exec hv hc⟩
  have hcmdline : IsQuiet (.readCmdline pid) := ⟨trivial, by simp, by simp⟩
  have hps : IsQuiet (.ps pid) := ⟨trivial, by simp, by simp⟩
  refine keeps_call stable_justified hw fun v hv => ⟨trivial, fun d _ => ?_⟩
  refine ⟨(hquiet _ hcmdline v hv d).1, ?_⟩
  cases hread : (exec procfs v (.readCmdline pid) d).1 with
  | ok cmdline =>
    refine keeps_ret (hend _) ⟨(hquiet _ hcmdline v hv d).2, fun htag => ?_⟩
    obtain ⟨k, p, hp, rfl, heq⟩ := exec_readCmdline_ok hread
    rw [heq]
    exact checked_shown hv.toSane hp (.inl (Except.ok.inj htag))
  | error err =>
    refine keeps_call stable_justified (hquiet _ hcmdline v hv d).2
      fun u hu => ⟨trivial, fun d' _ => ⟨(hquiet _ hps u hu d').1, ?_⟩⟩
    cases hout : (exec procfs u (.ps pid) d').1 with
    | ok out =>
      refine keeps_ret (hend _) ⟨(hquiet _ hps u hu d').2, fun htag => ?_⟩
      obtain ⟨k, p, hp, rfl, heq⟩ := exec_ps_ok hout
      rw [heq]
      exact checked_shown hu.toSane hp (.inr (Except.ok.inj htag))
    | error err =>
      exact keeps_ret (hend _) ⟨(hquiet _ hps u hu d').2, fun htag => nomatch htag⟩

/-- A signal to the process that runs under an id, once the id was looked at. -/
theorem justified_signal (hw : w.Justified) (hp : w.processes[k]? = some p)
    (hwhy : p.IsTagged ∨ ∃ n ≤ k, w.HasShown p.pid n) (byHost : Bool) :
    (w.signal k byHost).Justified := by
  refine hw.grows (grows_signal w k byHost) (hw.toSane.signal byHost) fun j hj => ?_
  obtain heq | hj := List.mem_cons.1 hj
  · cases heq
    exact .inr ⟨p, hp, hwhy⟩
  · exact .inl hj

theorem evolves_kill (procfs : Bool) (d : Decision) (hchecked : Checked pid w) :
    Evolves w (exec procfs w (.kill pid) d).2 := by
  refine ⟨grows_exec procfs w _ d, fun hw => ?_⟩
  simp only [exec]
  split
  · rename_i k p hp
    split
    · obtain ⟨hk, hrunning, hpid⟩ := running_eq_some hp
      obtain ⟨j, q, n, hnote, hq, htagged, hpid', _, hlater⟩ := hchecked
      refine justified_signal hw hk ?_ false
      obtain rfl | hn := hlater k p hk hrunning hpid
      · cases hk.symm.trans hq
        exact .inl htagged
      · have hsame : (q.pid : Rat) = p.pid := JsNumber.finite.inj (hpid'.symm.trans hpid)
        exact .inr ⟨n, hn, j, q, hnote, hq, Rat.natCast_inj.1 hsame, htagged⟩
    · exact hw
  · exact hw

theorem keeps_killIfOurBridge (hw : w.Justified) :
    (killIfOurBridge pid).Keeps (besides procfs) (fun _ => Justified) w := by
  unfold killIfOurBridge
  split
  · exact keeps_ret stable_justified hw
  · refine (keeps_pidBelongsToOurBridge hw).bind (fun ours v hv => ?_) fun _ _ hv => hv.1
    cases ours with
    | false => exact keeps_ret stable_justified hv.1
    | true =>
      have hstable : (besides procfs).Stable fun v => v.Justified ∧ Checked pid v :=
        fun _ _ hrely h => ⟨hrely.justified h.1, hrely.grows.checked h.2⟩
      refine keeps_call hstable ⟨hv.1, hv.2 rfl⟩ fun u hu => ⟨trivial, fun d _ => ?_⟩
      have hevolves := evolves_kill procfs d hu.2
      exact ⟨hevolves, keeps_ret stable_justified (hevolves.justified hu.1)⟩

theorem callsIn_settle {C : OsCall → Prop} (hc : C c) : (settle c : OsProg _).CallsIn C :=
  ⟨hc, fun _ => trivial⟩

theorem callsIn_await {C : OsCall → Prop} (hc : C c) : (await c : OsProg _).CallsIn C :=
  ⟨hc, fun _ => callsIn_ofExcept _⟩

theorem keeps_acquirePidLock (hw : w.Justified) :
    acquirePidLock.Keeps (besides procfs) (fun _ => Justified) w := by
  unfold acquirePidLock
  refine (keeps_of_quiet (callsIn_await (by simp [IsQuiet, IsHostCall])) hw).bind
    (fun _ v hv => ?_) fun _ _ => id
  refine (keeps_of_quiet (callsIn_await (by simp [IsQuiet, IsHostCall])) hv).bind
    (fun found v hv => ?_) fun _ _ => id
  cases found with
  | false => exact keeps_ret stable_justified hv
  | true =>
    refine (keeps_of_quiet (callsIn_await (by simp [IsQuiet, IsHostCall])) hv).bind
      (fun raw v hv => ?_) fun _ _ => id
    refine (keeps_killIfOurBridge hv).bind (fun _ v hv => ?_) fun _ _ => id
    exact keeps_of_quiet (callsIn_settle (by simp [IsQuiet, IsHostCall])) hv

theorem keeps_spawnBridge (bridgeScriptPath sessionId : JsString) (hw : w.Justified) :
    (spawnBridge bridgeScriptPath sessionId).Keeps (besides procfs) (fun _ => Justified) w := by
  unfold spawnBridge
  refine (keeps_acquirePidLock hw).bind (fun _ v hv => ?_) fun _ _ => id
  refine (keeps_of_quiet (callsIn_await ?_) hv).bind (fun child v hv => ?_) fun _ _ => id
  · exact ⟨⟨bridgeScriptPath, sessionId, rfl⟩, by simp, by simp⟩
  · cases child with
    | none => exact keeps_ret stable_justified hv
    | some child =>
      refine (keeps_of_quiet (callsIn_await (by simp [IsQuiet, IsHostCall])) hv).bind
        (fun _ v hv => ?_) fun _ _ => id
      exact keeps_ret stable_justified hv

/-- A process is a bridge. -/
def IsBridge (k : Nat) (w : Os) : Prop := ∃ p, w.processes[k]? = some p ∧ p.bridge = true

theorem Grows.isBridge (h : Grows w v) (hbridge : IsBridge k w) : IsBridge k v := by
  obtain ⟨p, hp, hbridge⟩ := hbridge
  obtain ⟨q, hq, _, _, hsame, _⟩ := h.kept k p hp
  exact ⟨q, hq, hsame.trans hbridge⟩

theorem evolves_signal (hbridge : IsBridge k w) (s : Signal) :
    Evolves w (exec procfs w (.signal k s) d).2 := by
  refine ⟨grows_exec procfs w _ d, fun hw => ?_⟩
  obtain ⟨p, hp, hbridge⟩ := hbridge
  simp only [exec]
  split
  · exact justified_signal hw hp (.inl (.inl (hw.tagged k p hp hbridge).1)) true
  · exact hw

/-- The calls of a `terminateBridge`. -/
def Terminates (child : Option Nat) (c : OsCall) : Prop :=
  IsQuiet c ∨ ∃ k s, child = some k ∧ c = .signal k s

theorem callsIn_terminateBridge (child : Option Nat) :
    (terminateBridge child).CallsIn (Terminates child) := by
  have hunlink : (do let _ ← settle OsCall.unlinkLock : OsProg Unit).CallsIn (Terminates child) :=
    (callsIn_settle (.inl (by simp [IsQuiet, IsHostCall]))).bind fun _ => trivial
  cases child with
  | none => exact hunlink
  | some k =>
    refine CallsIn.bind ?_ fun _ => hunlink
    refine (callsIn_await (.inl (by simp [IsQuiet, IsHostCall]))).bind fun killed => ?_
    cases killed with
    | true => trivial
    | false =>
      refine (callsIn_settle (.inr ⟨k, .sigterm, rfl, rfl⟩)).bind fun _ => ?_
      refine (callsIn_await (.inl (by simp [IsQuiet, IsHostCall]))).bind fun exited => ?_
      cases exited with
      | true => trivial
      | false =>
        refine (callsIn_settle (.inr ⟨k, .sigkill, rfl, rfl⟩)).bind fun _ => ?_
        exact (callsIn_settle (.inl (by simp [IsQuiet, IsHostCall]))).bind fun _ => trivial

theorem keeps_terminateBridge {child : Option Nat} (hchild : ∀ k, child = some k → IsBridge k w)
    (hw : w.Justified) :
    (terminateBridge child).Keeps (besides procfs) (fun _ => Justified) w := by
  have hstable : (besides procfs).Stable
      fun v => v.Justified ∧ ∀ k, child = some k → IsBridge k v := fun _ _ hrely h =>
    ⟨hrely.justified h.1, fun k hk => hrely.grows.isBridge (h.2 k hk)⟩
  refine Keeps.mono (keeps_of_callsIn hstable (fun c v hc hv => ⟨trivial, fun d _ => ?_⟩)
    (callsIn_terminateBridge child) ⟨hw, hchild⟩) fun _ _ h => h.1
  have hevolves : Evolves v (exec procfs v c d).2 := by
    obtain hquiet | ⟨k, s, hk, rfl⟩ := hc
    · exact evolves_exec hquiet
    · exact evolves_signal (hv.2 k hk) s
  exact ⟨hevolves, hevolves.justified hv.1,
    fun k hk => hevolves.grows.isBridge (hv.2 k hk)⟩

theorem keeps_program {b : HostCall} (hw : w.Justified) (hadmitted : b.admitted w = true) :
    b.program.Keeps (besides procfs) (fun _ _ => True) w := by
  cases b with
  | spawn bridgeScriptPath sessionId =>
    refine (keeps_spawnBridge bridgeScriptPath sessionId hw).bind (fun _ _ _ => ?_)
      fun _ _ _ => trivial
    exact keeps_ret (fun _ _ _ => id) trivial
  | terminate child =>
    refine (keeps_terminateBridge (fun k hk => ?_) hw).mono fun _ _ _ => trivial
    rw [HostCall.admitted, hk, Option.all_some] at hadmitted
    exact (Option.any_eq_true _ _).1 hadmitted

theorem evolves_happens {happening : Happening} (h : w.happens happening = some v) :
    Evolves w v := by
  refine ⟨grows_happens h, fun hw => hw.grows (grows_happens h) (hw.toSane.happens h) ?_⟩
  intro k hk
  refine .inl ?_
  cases happening with
  | started pid argv =>
    obtain ⟨_, heq⟩ := Option.ite_none_right_eq_some.1 h
    cases heq
    exact hk
  | exited k =>
    obtain ⟨_, heq⟩ := Option.ite_none_right_eq_some.1 h
    cases heq
    exact hk

end Os

open Os

/-- In every run, with any number of hosts that start and terminate bridges at once and may be
stopped at any call, and with processes that start, exit and have their ids used again meanwhile, a
process that is signalled carries the tag of the bridge, or it was started with the id of one that
does after that one was looked at. -/
theorem only_bridges_signalled (procfs : Bool) (lock : Option JsString) (moves : List HostMove)
    (x : Hosts) (hrun : run (Hosts.step procfs) { world := { lock } } moves = some x) :
    ∀ k, .signalled k ∈ x.world.log → ∃ p, x.world.processes[k]? = some p ∧
      (p.IsTagged ∨ ∃ n ≤ k, x.world.HasShown p.pid n) := by
  have hinit : ({ lock } : Os).Justified :=
    ⟨sane_init.of_processes rfl, fun k hk => nomatch hk⟩
  have hsound := Threads.threads_keep (σ := besides procfs) (I := Justified) ?_ ?_ ?_ hinit
    (meets_of_forall fun move _ s => ?_) hrun
  · exact hsound.world.signals
  · intro b w hw hadmitted
    exact keeps_program hw hadmitted
  · exact fun w v hw hevolves => ⟨hevolves.justified hw, hevolves⟩
  · intro happening w v hw hhappens
    have hevolves := evolves_happens hhappens
    exact ⟨hevolves.justified hw, hevolves⟩
  · cases move with
    | advance i d => exact fun _ _ _ => trivial
    | _ => trivial

/-- A host starts a bridge, and a second host starts one in its place. -/
def replaced : List HostMove :=
  let spawn := HostCall.spawn (js "bridge.mjs") (js "default")
  [.start spawn] ++ List.replicate 2 (.advance 0 {}) ++ [.advance 0 { pid := 7 }, .advance 0 {}] ++
    [.start spawn] ++ List.replicate 6 (.advance 1 {}) ++ [.advance 1 { pid := 8 }, .advance 1 {}]

theorem only_bridges_signalled_replaced : ∃ x,
    run (Hosts.step true) { world := {} } replaced = some x ∧
      ∀ k, .signalled k ∈ x.world.log → ∃ p, x.world.processes[k]? = some p ∧
        (p.IsTagged ∨ ∃ n ≤ k, x.world.HasShown p.pid n) := by
  have hsome : (run (Hosts.step true) { world := {} } replaced).isSome = true := by decide +kernel
  obtain ⟨x, hrun⟩ := Option.isSome_iff_exists.1 hsome
  exact ⟨x, hrun, only_bridges_signalled true none replaced x hrun⟩

namespace Os

variable {w v : Os} {k : Nat} {p q : Process} {pid : JsNumber} {procfs : Bool} {c : OsCall}
  {d : Decision} {n : Nat} {bridgeScriptPath sessionId : JsString} {child : Option Nat}

/-! ### One bridge at a time -/

/-- A bridge runs that was not asked to exit. -/
structure AtLarge (w : Os) (k : Nat) (p : Process) : Prop where
  place : w.processes[k]? = some p
  bridge : p.bridge = true
  running : p.running = true
  unsignalled : p.signalled = false

structure OneAtLarge (w : Os) : Prop where
  only : ∀ i j p q, w.AtLarge i p → w.AtLarge j q → i = j

/-- The lock file names what is at large. -/
structure Tidy (w : Os) : Prop extends w.Sane where
  locked : ∀ k p, w.AtLarge k p → w.lock = some (natText p.pid)

/-- Nothing is at large. -/
structure Clear (w : Os) : Prop extends w.Sane where
  none : ∀ k p, ¬w.AtLarge k p

theorem Clear.tidy (h : w.Clear) : w.Tidy := ⟨h.toSane, fun k p hp => (h.none k p hp).elim⟩

theorem Tidy.one (h : w.Tidy) : w.OneAtLarge where
  only i j p q hp hq := by
    have htext := (h.locked i p hp).symm.trans (h.locked j q hq)
    exact h.distinct i j p q hp.place hq.place hp.running hq.running
      (natText_inj (Option.some.inj htext))

/-- What is left to a host alone. -/
structure Undisturbed (w v : Os) : Prop where
  sane : w.Sane → v.Sane
  lock : v.lock = w.lock
  atLarge : ∀ k q, v.AtLarge k q → ∃ p, w.AtLarge k p ∧ q.pid = p.pid

/-- The bridges are the hosts', and nothing else keeps the lock file. -/
def isGranted (c : OsCall) (d : Decision) : Bool :=
  match c with
  | .ps _ | .kill _ | .signal .. | .writeLock _ => d.allowed
  | _ => true

/-- Whether a call writes the lock file. -/
def writesLock : OsCall → Bool
  | .writeLock _ => true
  | _ => false

/-- A host that is not disturbed. -/
def undisturbed (procfs : Bool) : Setting (exec procfs) where
  may c d := isGranted c d = true
  rely := Undisturbed
  guar _ _ := True
  before c w := w.OneAtLarge ∧ (writesLock c = false → w.Tidy)
  refl w := ⟨id, rfl, fun _ q hq => ⟨q, hq, rfl⟩⟩
  trans h h' := by
    refine ⟨fun hu => h'.sane (h.sane hu), h'.lock.trans h.lock, fun k q hq => ?_⟩
    obtain ⟨p, hp, hpid⟩ := h'.atLarge k q hq
    obtain ⟨r, hr, hpid'⟩ := h.atLarge k p hp
    exact ⟨r, hr, hpid.trans hpid'⟩

theorem undisturbed_happens {happening : Happening} (h : w.happens happening = some v) :
    Undisturbed w v := by
  suffices hrest : v.lock = w.lock ∧ ∀ k q, v.AtLarge k q → ∃ p, w.AtLarge k p ∧ q.pid = p.pid from
    ⟨fun hw => hw.happens h, hrest.1, hrest.2⟩
  cases happening with
  | started pid argv =>
    obtain ⟨_, heq⟩ := Option.ite_none_right_eq_some.1 h
    cases heq
    refine ⟨rfl, fun k q hq => ?_⟩
    obtain hk | ⟨_, rfl⟩ := getElem?_start hq.place
    · exact ⟨q, ⟨hk, hq.bridge, hq.running, hq.unsignalled⟩, rfl⟩
    · exact absurd hq.bridge (by simp)
  | exited j =>
    obtain ⟨_, heq⟩ := Option.ite_none_right_eq_some.1 h
    cases heq
    refine ⟨rfl, fun k q hq => ?_⟩
    obtain ⟨p, hp, rfl⟩ := getElem?_modifyProcess hq.place
    split at hq
    · exact absurd hq.running (by simp)
    · exact ⟨p, ⟨hp, hq.bridge, hq.running, hq.unsignalled⟩, by rw [if_neg ‹_›]⟩

theorem Undisturbed.tidy (h : Undisturbed w v) (hw : w.Tidy) : v.Tidy := by
  refine ⟨h.sane hw.toSane, fun k q hq => ?_⟩
  obtain ⟨p, hp, hpid⟩ := h.atLarge k q hq
  rw [h.lock, hpid]
  exact hw.locked k p hp

theorem Undisturbed.clear (h : Undisturbed w v) (hw : w.Clear) : v.Clear := by
  refine ⟨h.sane hw.toSane, fun k q hq => ?_⟩
  obtain ⟨p, hp, _⟩ := h.atLarge k q hq
  exact hw.none k p hp

theorem stable_tidy : (undisturbed procfs).Stable Tidy := fun _ _ hrely => hrely.tidy

theorem stable_clear : (undisturbed procfs).Stable Clear := fun _ _ hrely => hrely.clear

theorem before_of_tidy (h : w.Tidy) : (undisturbed procfs).before c w := ⟨h.one, fun _ => h⟩

/-- A call where what is at large is locked. -/
theorem tidy_call {α : Type} {P : Os → Prop} {k : Except OsError c.Answer → OsProg α}
    {Q : Except OsError α → Os → Prop} (hstable : (undisturbed procfs).Stable P)
    (htidy : ∀ v, P v → v.Tidy) (hw : P w)
    (hk : ∀ v d, P v → isGranted c d = true →
      (k (exec procfs v c d).1).Keeps (undisturbed procfs) Q (exec procfs v c d).2) :
    (Prog.call c k).Keeps (undisturbed procfs) Q w :=
  keeps_call hstable hw fun v hv =>
    ⟨before_of_tidy (htidy v hv), fun d hd => ⟨trivial, hk v d hv hd⟩⟩

theorem atLarge_signal {byHost : Bool} (hq : (w.signal k byHost).AtLarge j q) :
    k ≠ j ∧ w.AtLarge j q := by
  obtain ⟨p, hp, rfl⟩ := getElem?_modifyProcess (w := w) hq.place
  by_cases hkj : k = j
  · rw [if_pos hkj] at hq
    exact absurd hq.unsignalled (by simp)
  · rw [if_neg hkj] at hq ⊢
    exact ⟨hkj, hp, hq.bridge, hq.running, hq.unsignalled⟩

/-- No call but the one that spawns a bridge lets one at large. -/
theorem atLarge_exec (hspawn : ∀ argv, c ≠ .spawn argv)
    (hq : (exec procfs w c d).2.AtLarge k q) : w.AtLarge k q := by
  by_cases hcalm : isCalm c = true
  · obtain ⟨log, heq, _⟩ := exec_calm procfs w d hcalm
    rw [heq] at hq
    exact ⟨hq.place, hq.bridge, hq.running, hq.unsignalled⟩
  cases c with
  | unlinkLock | writeLock text =>
    simp only [exec] at hq
    split at hq
    · exact ⟨hq.place, hq.bridge, hq.running, hq.unsignalled⟩
    · exact hq
  | kill pid =>
    simp only [exec] at hq
    split at hq
    · split at hq
      · exact (atLarge_signal hq).2
      · exact hq
    · exact hq
  | signal k s =>
    simp only [exec] at hq
    split at hq
    · exact (atLarge_signal hq).2
    · exact hq
  | spawn argv => exact absurd rfl (hspawn argv)
  | _ => exact absurd rfl hcalm

theorem Clear.exec (h : w.Clear) (hspawn : ∀ argv, c ≠ .spawn argv) :
    (exec procfs w c d).2.Clear := by
  refine ⟨h.toSane.exec ?_, fun k q hq => h.none k q (atLarge_exec hspawn hq)⟩
  cases c with
  | spawn argv => exact absurd rfl (hspawn argv)
  | _ => trivial

/-- A call that changes neither the processes nor the lock keeps what is known of them. -/
theorem Tidy.exec (h : w.Tidy) (procfs : Bool) (d : Decision) (hcalm : isCalm c = true) :
    (exec procfs w c d).2.Tidy := by
  obtain ⟨log, heq, _⟩ := exec_calm procfs w d hcalm
  rw [heq]
  exact ⟨h.toSane.of_processes rfl, fun k p hp =>
    h.locked k p ⟨hp.place, hp.bridge, hp.running, hp.unsignalled⟩⟩

/-- The number is the id of what is at large. -/
structure Names (pid : JsNumber) (w : Os) : Prop extends w.Tidy where
  names : ∀ k p, w.AtLarge k p → pid = .finite p.pid

theorem stable_names : (undisturbed procfs).Stable (Names pid) := by
  refine fun w v hrely h => ⟨hrely.tidy h.toTidy, fun k q hq => ?_⟩
  obtain ⟨p, hp, hpid⟩ := hrely.atLarge k q hq
  rw [hpid]
  exact h.names k p hp

theorem Names.exec (h : Names pid w) (procfs : Bool) (d : Decision) (hcalm : isCalm c = true) :
    Names pid (exec procfs w c d).2 := by
  refine ⟨h.toTidy.exec procfs d hcalm, fun k p hp => h.names k p (atLarge_exec ?_ hp)⟩
  rintro argv rfl
  cases hcalm

/-- What is at large runs under the number. -/
theorem Names.eq_of_running (h : Names pid w) (hp : w.running pid = some (k, p)) {j : Nat}
    (hq : w.AtLarge j q) : j = k ∧ q = p := by
  obtain ⟨hk, hrunning, hpid⟩ := running_eq_some hp
  have hsame : (q.pid : Rat) = p.pid := JsNumber.finite.inj ((h.names j q hq).symm.trans hpid)
  have hplace := h.distinct j k q p hq.place hk hq.running hrunning (Rat.natCast_inj.1 hsame)
  refine ⟨hplace, ?_⟩
  have hplace' := hq.place
  rw [hplace, hk] at hplace'
  exact (Option.some.inj hplace').symm

theorem Names.clear_of_none (h : Names pid w) (hnone : w.running pid = none) : w.Clear :=
  ⟨h.toSane, fun k p hp => running_eq_none hnone hp.place hp.running (h.names k p hp)⟩

/-- Nothing is at large when the process under the number is no bridge. -/
theorem Names.clear_of_running (h : Names pid w) (hp : w.running pid = some (k, p))
    (huntagged : includes bridgeProcessTag p.cmdline = false ∨
      includes bridgeProcessTag p.args = false) : w.Clear := by
  refine ⟨h.toSane, fun j q hq => ?_⟩
  obtain ⟨rfl, rfl⟩ := h.eq_of_running hp hq
  obtain ⟨hcmdline, hargs⟩ := h.tagged j q hq.place hq.bridge
  obtain hno | hno := huntagged
  · rw [hcmdline] at hno
    cases hno
  · rw [hargs] at hno
    cases hno

theorem names_pidBelongsToOurBridge (hw : Names pid w) :
    (pidBelongsToOurBridge pid).Keeps (undisturbed procfs)
      (fun r v => ∃ ours, r = .ok ours ∧ Names pid v ∧ (ours = false → v.Clear)) w := by
  have hend {v : Os} (ours : Bool) (hv : Names pid v) (hclear : ours = false → v.Clear) :
      (Prog.ret ours : OsProg Bool).Keeps (undisturbed procfs)
        (fun r v => ∃ ours, r = .ok ours ∧ Names pid v ∧ (ours = false → v.Clear)) v :=
    fun _ hrely => ⟨ours, rfl, stable_names _ _ hrely hv, fun h => hrely.clear (hclear h)⟩
  refine tidy_call stable_names (fun _ h => h.toTidy) hw fun v d hv _ => ?_
  have hnames := hv.exec procfs d (c := .readCmdline pid) rfl
  cases hread : (exec procfs v (.readCmdline pid) d).1 with
  | ok cmdline =>
    refine hend _ hnames fun htag => ?_
    obtain ⟨k, p, hp, rfl, heq⟩ := exec_readCmdline_ok hread
    have hclear := hv.clear_of_running hp (.inl htag)
    exact hclear.exec (by simp)
  | error err =>
    refine tidy_call stable_names (fun _ h => h.toTidy) hnames fun u d' hu hd' => ?_
    have hnames' := hu.exec procfs d' (c := .ps pid) rfl
    cases hout : (exec procfs u (.ps pid) d').1 with
    | ok out =>
      refine hend _ hnames' fun htag => ?_
      obtain ⟨k, p, hp, rfl, heq⟩ := exec_ps_ok hout
      have hclear := hu.clear_of_running hp (.inr htag)
      exact hclear.exec (by simp)
    | error err =>
      refine hend _ hnames' fun _ => ?_
      have hnone : u.running pid = none := by
        cases hp : u.running pid with
        | none => rfl
        | some found =>
          have hallowed : d'.allowed = true := hd'
          simp [exec, hp, hallowed] at hout
      exact (hu.clear_of_none hnone).exec (by simp)

theorem clear_kill (h : Names pid w) (hallowed : d.allowed = true) :
    (exec procfs w (.kill pid) d).2.Clear := by
  refine ⟨h.toSane.exec trivial, fun j q hq => ?_⟩
  have hbefore := atLarge_exec (by simp) hq
  cases hp : w.running pid with
  | none => exact (h.clear_of_none hp).none j q hbefore
  | some found =>
    obtain ⟨k, p⟩ := found
    simp only [exec, hp, hallowed, if_true] at hq
    exact (atLarge_signal hq).1 (h.eq_of_running hp hbefore).1.symm

theorem clear_killIfOurBridge (hw : Names pid w) :
    (killIfOurBridge pid).Keeps (undisturbed procfs)
      (fun r v => r = .ok () ∧ v.Clear) w := by
  have hend {v : Os} (hv : v.Clear) : (Prog.ret () : OsProg Unit).Keeps (undisturbed procfs)
      (fun r v => r = .ok () ∧ v.Clear) v := fun _ hrely => ⟨rfl, hrely.clear hv⟩
  unfold killIfOurBridge
  split
  · -- What cannot be an id is none of a bridge at large.
    rename_i hno
    refine hend ⟨hw.toSane, fun k p hp => ?_⟩
    have hpos : (0 : Rat) < p.pid := Rat.natCast_pos.2 (hw.fits k p hp.place).1
    rw [hw.names k p hp] at hno
    simp [isPid, JsNumber.isFinite, JsNumber.le, Rat.not_le.2 hpos] at hno
  · refine (names_pidBelongsToOurBridge hw).bind (fun ours v hv => ?_) fun _ v hv => ?_
    · obtain ⟨_, heq, hnames, hclear⟩ := hv
      cases heq
      cases ours with
      | false => exact hend (hclear rfl)
      | true =>
        refine tidy_call stable_names (fun _ h => h.toTidy) hnames fun u d hu hd => ?_
        exact hend (clear_kill hu hd)
    · obtain ⟨_, heq, _⟩ := hv
      cases heq

/-- How the lock is acquired: nothing is at large, or what is has stayed locked. -/
def Acquired (r : Except OsError Unit) (w : Os) : Prop :=
  match r with
  | .ok () => w.Clear
  | .error _ => w.Tidy

theorem clear_cleanupStaleLock (hw : w.Tidy) :
    cleanupStaleLock.Keeps (undisturbed procfs) Acquired w := by
  refine tidy_call stable_tidy (fun _ => id) hw fun v d hv _ => ?_
  have htidy := hv.exec procfs d (c := .readLock) rfl
  cases hread : (exec procfs v .readLock d).1 with
  | error err => exact fun u hu => hu.tidy htidy
  | ok raw =>
    have hraw : v.lock = some raw ∧ (exec procfs v .readLock d).2 = v := by
      cases hlock : v.lock with
      | none => simp [exec, hlock] at hread
      | some text =>
        simp only [exec, hlock] at hread ⊢
        split at hread
        · cases hread
          exact ⟨rfl, trivial⟩
        · cases hread
    rw [hraw.2] at htidy ⊢
    have hnames : Names (.parseInt (trim raw)) v := by
      refine ⟨hv, fun k p hp => ?_⟩
      have htext := Option.some.inj (hraw.1.symm.trans (hv.locked k p hp))
      rw [htext]
      have := (hv.fits k p hp.place).2
      exact JsNumber.parseInt_natText (by omega)
    refine (clear_killIfOurBridge hnames).bind (fun _ u hu => ?_) fun _ u hu => nomatch hu.1
    refine tidy_call stable_clear (fun _ h => h.tidy) hu.2 fun u d hu _ => ?_
    exact keeps_ret stable_clear (hu.exec (by simp))

theorem clear_acquirePidLock (hw : w.Tidy) :
    acquirePidLock.Keeps (undisturbed procfs) Acquired w := by
  refine tidy_call stable_tidy (fun _ => id) hw fun v d hv _ => ?_
  have htidy := hv.exec procfs d (c := .mkdir) rfl
  cases (exec procfs v .mkdir d).1 with
  | error err => exact fun u hu => hu.tidy htidy
  | ok =>
    refine tidy_call stable_tidy (fun _ => id) htidy fun u d' hu _ => ?_
    show (if u.lock.isSome then cleanupStaleLock else return () : OsProg Unit).Keeps _ _ u
    split
    · exact clear_cleanupStaleLock hu
    · refine keeps_ret stable_clear ⟨hu.toSane, fun k p hp => ?_⟩
      rename_i hno
      rw [hu.locked k p hp] at hno
      exact hno rfl

/-- What is at large has this id. -/
structure HasPid (n : Nat) (w : Os) : Prop extends w.Sane where
  pid_eq : ∀ k p, w.AtLarge k p → p.pid = n

theorem HasPid.one (h : HasPid n w) : w.OneAtLarge where
  only i j p q hp hq := h.distinct i j p q hp.place hq.place hp.running hq.running
    ((h.pid_eq i p hp).trans (h.pid_eq j q hq).symm)

theorem stable_hasPid : (undisturbed procfs).Stable (HasPid n) := by
  refine fun w v hrely h => ⟨hrely.sane h.toSane, fun k q hq => ?_⟩
  obtain ⟨p, hp, hpid⟩ := hrely.atLarge k q hq
  exact hpid.trans (h.pid_eq k p hp)

/-- A bridge that is spawned where nothing is at large is all that is. -/
theorem hasPid_spawn (h : w.Clear) {argv : List JsString} (hargv : IsHostCall (.spawn argv))
    (procfs : Bool) (d : Decision) :
    exec procfs w (.spawn argv) d = (.ok none, w) ∨ ∃ k n v,
      exec procfs w (.spawn argv) d = (.ok (some (k, n)), v) ∧ HasPid n v := by
  have hsane : (exec procfs w (.spawn argv) d).2.Sane := h.toSane.exec hargv
  simp only [exec] at hsane ⊢
  split
  · rw [if_pos ‹_›] at hsane
    refine .inr ⟨_, _, _, rfl, hsane, fun k p hp => ?_⟩
    obtain hk | ⟨_, rfl⟩ := getElem?_start hp.place
    · exact absurd ⟨hk, hp.bridge, hp.running, hp.unsignalled⟩ (h.none k p)
    · rfl
  · exact .inl rfl

theorem HasPid.tidy_writeLock (h : HasPid n w) (procfs : Bool) (hallowed : d.allowed = true) :
    (exec procfs w (.writeLock (natText n)) d).2.Tidy := by
  refine ⟨h.toSane.exec trivial, fun k p hp => ?_⟩
  have hbefore := atLarge_exec (by simp) hp
  simp only [exec, hallowed, if_true, h.pid_eq k p hbefore]

theorem tidy_spawnBridge (hw : w.Tidy) :
    (spawnBridge bridgeScriptPath sessionId).Keeps (undisturbed procfs) (fun _ => Tidy) w := by
  refine (clear_acquirePidLock hw).bind (fun _ v hv => ?_) fun _ _ hv => hv
  refine tidy_call stable_clear (fun _ h => h.tidy) hv fun u d hu _ => ?_
  obtain heq | ⟨k, n, u', heq, hpid⟩ := hasPid_spawn hu ⟨bridgeScriptPath, sessionId, rfl⟩ procfs d
  · rw [heq]
    exact keeps_ret stable_tidy hu.tidy
  · rw [heq]
    refine keeps_call stable_hasPid hpid
      fun v hv => ⟨⟨hv.one, fun hno => nomatch hno⟩, fun d hd => ⟨trivial, ?_⟩⟩
    have htidy := hv.tidy_writeLock procfs hd
    cases (exec procfs v (.writeLock (natText n)) d).1 with
    | ok => exact keeps_ret stable_tidy htidy
    | error err => exact fun u hu => hu.tidy htidy

/-- Nothing is at large but the child. -/
structure OnlyChild (k : Nat) (w : Os) : Prop extends w.Tidy where
  place : ∀ j p, w.AtLarge j p → j = k

theorem stable_onlyChild : (undisturbed procfs).Stable (OnlyChild k) := by
  refine fun w v hrely h => ⟨hrely.tidy h.toTidy, fun j q hq => ?_⟩
  obtain ⟨p, hp, _⟩ := hrely.atLarge j q hq
  exact h.place j p hp

/-- A child that its host has signalled is not at large. -/
theorem OnlyChild.clear_of_killed (h : OnlyChild k w)
    (hkilled : w.processes[k]?.any (·.killed) = true) : w.Clear := by
  refine ⟨h.toSane, fun j p hp => ?_⟩
  obtain rfl := h.place j p hp
  rw [hp.place, Option.any_some] at hkilled
  have hsignalled := h.killed j p hp.place hkilled
  rw [hp.unsignalled] at hsignalled
  cases hsignalled

theorem clear_signal (h : OnlyChild k w) {signal : Signal} (hallowed : d.allowed = true) :
    (exec procfs w (.signal k signal) d).2.Clear := by
  refine ⟨h.toSane.exec trivial, fun j q hq => ?_⟩
  have hbefore := atLarge_exec (by simp) hq
  obtain rfl := h.place j q hbefore
  simp only [exec, hallowed, hbefore.place, Option.any_some, hbefore.running, Bool.and_self,
    if_true] at hq
  exact (atLarge_signal hq).1 rfl

/-- Nothing comes to be at large but by a spawn. -/
theorem keeps_clear {α : Type} {prog : OsProg α}
    (hprog : prog.CallsIn fun c => ∀ argv, c ≠ .spawn argv)
    (hw : w.Clear) : prog.Keeps (undisturbed procfs) (fun _ => Clear) w :=
  keeps_of_callsIn stable_clear
    (fun _ _ hc hv => ⟨before_of_tidy hv.tidy, fun _ _ => ⟨trivial, hv.exec hc⟩⟩) hprog hw

theorem clear_stopChild (hw : OnlyChild k w) :
    (stopChild k).Keeps (undisturbed procfs) (fun _ => Clear) w := by
  refine tidy_call stable_onlyChild (fun _ h => h.toTidy) hw fun v d hv _ => ?_
  show (if v.processes[k]?.any (·.killed) then return () else _ : OsProg Unit).Keeps _ _ v
  split
  · exact keeps_ret stable_clear (hv.clear_of_killed ‹_›)
  · refine tidy_call stable_onlyChild (fun _ h => h.toTidy) hv fun u d hu hd => ?_
    refine keeps_clear ⟨by simp, fun exited => ?_⟩ (clear_signal hu hd)
    match exited with
    | .ok true | .error _ => trivial
    | .ok false => exact ⟨by simp, fun _ => ⟨by simp, fun _ => trivial⟩⟩

theorem clear_terminateBridge (hw : w.Tidy) (hfits : ∀ k p, w.AtLarge k p → child = some k) :
    (terminateBridge child).Keeps (undisturbed procfs) (fun _ => Clear) w := by
  have hunlink {v : Os} (hv : v.Clear) : (do
      let _ ← settle OsCall.unlinkLock : OsProg Unit).Keeps (undisturbed procfs)
      (fun _ => Clear) v :=
    keeps_clear ⟨by simp, fun _ => trivial⟩ hv
  cases child with
  | none => exact hunlink ⟨hw.toSane, fun k p hp => nomatch hfits k p hp⟩
  | some k =>
    have hchild : OnlyChild k w := ⟨hw, fun j p hp => (Option.some.inj (hfits j p hp)).symm⟩
    exact (clear_stopChild hchild).bind (fun _ v hv => hunlink hv) fun _ v hv => hv

end Os

/-- A bridge is terminated where no other is at large. -/
def HostCall.Fits (w : Os) : HostCall → Prop
  | .spawn .. => True
  | .terminate child => ∀ k < w.processes.length, ∀ p ∈ w.processes[k]?,
    p.bridge = true → p.running = true → p.signalled = false → child = some k

instance (w : Os) : ∀ b : HostCall, Decidable (b.Fits w)
  | .spawn .. => inferInstanceAs (Decidable True)
  | .terminate child => inferInstanceAs (Decidable (∀ k < w.processes.length,
    ∀ p ∈ w.processes[k]?, p.bridge = true → p.running = true → p.signalled = false →
      child = some k))

theorem tidy_program {procfs : Bool} {b : HostCall} {w : Os} (hw : w.Tidy) (hfits : b.Fits w) :
    b.program.Keeps (undisturbed procfs) (fun _ => Tidy) w := by
  cases b with
  | spawn bridgeScriptPath sessionId =>
    exact (tidy_spawnBridge hw).bind (fun _ v hv u hu => hu.tidy hv) fun _ v hv => hv
  | terminate child =>
    refine (clear_terminateBridge hw fun k p hp => ?_).mono fun _ v hv => hv.tidy
    obtain ⟨hlt, _⟩ := List.getElem?_eq_some_iff.1 hp.place
    exact hfits k hlt p hp.place hp.bridge hp.running hp.unsignalled

/-- One host at a time is at work, what it asks of the processes and of the lock file is granted,
and it does not die between the start of a bridge and the write of its lock file. -/
def Hosts.OneByOne (x : Hosts) : HostMove → Prop
  | .start b => (x.threads.all (·.all finished)) = true ∧ b.Fits x.world
  | .advance i d => ∀ c ∈ (x.thread i).bind pending, isGranted c d = true
  | .stop i => ∀ c ∈ (x.thread i).bind pending, writesLock c = false
  | .other _ => True

instance (x : Hosts) : ∀ move, Decidable (x.OneByOne move)
  | .start b => inferInstanceAs (Decidable (_ ∧ b.Fits x.world))
  | .advance i d =>
    inferInstanceAs (Decidable (∀ c ∈ (x.thread i).bind pending, isGranted c d = true))
  | .stop i =>
    inferInstanceAs (Decidable (∀ c ∈ (x.thread i).bind pending, writesLock c = false))
  | .other _ => inferInstanceAs (Decidable True)

theorem Hosts.OneByOne.alone {x : Hosts} {move : HostMove} {procfs : Bool} (h : x.OneByOne move) :
    x.Alone (undisturbed procfs) HostCall.Fits (fun c => writesLock c = false) move := by
  cases move with
  | start b =>
    refine ⟨fun i p hi => ?_, h.2⟩
    have hmem : some p ∈ x.threads := List.mem_of_getElem? (Option.join_eq_some_iff.1 hi)
    exact List.all_eq_true.1 h.1 _ hmem
  | advance i d =>
    intro c k hi
    exact h c (by rw [hi]; rfl)
  | stop i =>
    intro p hi
    cases p with
    | call c k => exact .inr ⟨c, rfl, h c (by rw [hi]; rfl)⟩
    | ret a => exact .inl rfl
    | throw e => exact .inl rfl
    | emit o k => exact o.elim
  | other e => trivial

/-- As long as hosts start and terminate bridges one at a time, each granted what it asks of the
processes and of the lock file, none dying between the start of a bridge and the write of the lock
file, and a bridge being terminated only where no other is at large, no two bridges of the session
are at large at once, and whenever no host is at work the lock file names the one that is. -/
theorem one_bridge (procfs : Bool) (lock : Option JsString) (moves : List HostMove) (x : Hosts)
    (hrun : run (Hosts.step procfs) { world := { lock } } moves = some x)
    (hmeets : Meets (Hosts.step procfs) Hosts.OneByOne { world := { lock } } moves) :
    (∀ i j p q, x.world.AtLarge i p → x.world.AtLarge j q → i = j) ∧
      (x.Idle → ∀ k p, x.world.AtLarge k p → x.world.lock = some (natText p.pid)) := by
  have hinit : ({ lock } : Os).Tidy :=
    ⟨sane_init.of_processes rfl, fun k p hp => absurd hp.place (by simp)⟩
  have hsole := Threads.alone_keep (σ := undisturbed procfs) (J := Tidy) ?_ ?_ stable_tidy ?_ hinit
    (hmeets.mono fun _ _ => Hosts.OneByOne.alone) hrun
  · refine ⟨?_, fun hidle => (hsole.idle hidle).locked⟩
    by_cases hlive : ∃ i p, x.thread i = some p ∧ p.finished = false
    · obtain ⟨i, p, hi, hlive⟩ := hlive
      have hkeeps := hsole.keeps i p hi hlive
      cases p with
      | call c k => exact (hkeeps x.world ((undisturbed procfs).refl _)).1.1.only
      | ret a => cases hlive
      | throw e => cases hlive
      | emit o k => exact o.elim
    · refine (hsole.idle fun i p hi => ?_).one.only
      exact Bool.of_not_eq_false fun hp => hlive ⟨i, p, hi, hp⟩
  · exact fun b w hw _ hfits => tidy_program hw hfits
  · exact fun c w hstops hbefore => hbefore.2 hstops
  · exact fun happening w v h => undisturbed_happens h

theorem one_bridge_replaced : ∃ x, run (Hosts.step true) { world := {} } replaced = some x ∧
    (∀ i j p q, x.world.AtLarge i p → x.world.AtLarge j q → i = j) ∧
      (x.Idle → ∀ k p, x.world.AtLarge k p → x.world.lock = some (natText p.pid)) := by
  have hsome : (run (Hosts.step true) { world := {} } replaced).isSome = true := by decide +kernel
  have hmeets : Meets (Hosts.step true) Hosts.OneByOne { world := {} } replaced := by
    decide +kernel
  obtain ⟨x, hrun⟩ := Option.isSome_iff_exists.1 hsome
  exact ⟨x, hrun, one_bridge true none replaced x hrun hmeets⟩

example : (run (Hosts.step true) { world := {} } replaced).map (fun x =>
    (x.world.lock, x.world.processes.map fun p => (p.pid, p.signalled))) =
      some (some (js "8"), [(7, true), (8, false)]) := by
  decide +kernel

end TheokitGateways.WhatsApp.Web
