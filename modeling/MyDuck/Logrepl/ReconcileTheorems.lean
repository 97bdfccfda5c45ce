/-
MyDuck.Logrepl.ReconcileTheorems — the loops of the subscriptions follow
the rows of `pg_subscription`.

`Held` says what one statement under way has achieved so far: the rows it
has visited agree with the map, and every subscription in the map is as
its flag says, the one that is being stopped excepted. `loops_follow_rows`
concludes, for every run in which `Sequential` holds at every step, that
no two loops of a subscription are alive at once, and that in a state at
rest a subscription has a running loop exactly when its row is there and
enabled. A `Stop` that comes before the goroutine of its loop has set
`running` is lost.
-/
import MyDuck.Logrepl.Reconcile
import MyDuck.Logrepl.ControlTheorems

namespace MyDuck.Logrepl

namespace Sub

/-- The loop of a subscription is as the flag says. -/
def Settled (s : Sub) : Prop :=
  (s.enabled = true → s.replicator.Active) ∧ (s.enabled = false → s.replicator.Idle)

/-- `Stop` call `j` is under way, or has stopped the loop. -/
def Halting (s : Sub) (j : Nat) : Prop := s.replicator.Stopping j ∨ s.replicator.Idle

end Sub

/-- The `Stop` call of a subscription that a statement waits for. -/
def CallPhase.stopOf : CallPhase → Nat → Option Nat
  | .stopping _ _ a j, b => if b = a then some j else none
  | .dropping _ _ a j, b => if b = a then some j else none
  | _, _ => none

open CallPhase (stopOf)

namespace Subscriptions

/-! ## The condition and the property -/

/-- What has to hold at a step: a statement is issued when the others have
returned, and `Stop` is called on a replicator none of whose goroutines
has still to set `running`. -/
def Sequential (s : Subscriptions) (e : SubscriptionEvent) : Prop :=
  ((∃ sql, e = .issue sql) → ∀ k, s.calls k = .returned) ∧
    ∀ a, s.stopCalled e = some a → ∀ i, (s.subs a).replicator.loops i ≠ .starting

/-- Every statement has returned, and no goroutine is on its way into or
out of its loop. -/
structure AtRest (s : Subscriptions) : Prop where
  calls : ∀ k, s.calls k = .returned
  loops : ∀ a i, (s.subs a).replicator.loops i ≠ .starting ∧
    (s.subs a).replicator.loops i ≠ .leaving

def Runs (s : Subscriptions) (name : String) : Prop :=
  ∃ a i, (s.subs a).name = name ∧ ((s.subs a).replicator.loops i).inLoop = true

/-! ## What a statement has achieved -/

/-- The map has the row, with its flag. -/
def Agrees (s : Subscriptions) (n : String) : Prop :=
  n ∈ s.keys ∧ (s.subs (s.entry n)).enabled = s.catalog.enabled n

/-- The loop of a subscription of the map, beside a statement. -/
def Fits (s : Subscriptions) (p : CallPhase) (a : Nat) : Prop :=
  match p.stopOf a with
  | none => (s.subs a).Settled
  | some j => (s.subs a).Halting j

/-- What a statement has achieved. -/
def Progress (s : Subscriptions) : CallPhase → Prop
  | .written => True
  | .visiting rows todo => rows = s.catalog ∧ ∀ n ∈ s.catalog.names, n ∉ todo → s.Agrees n
  | .stopping rows todo a _ =>
    (rows = s.catalog ∧ ∀ n ∈ s.catalog.names, n ∉ todo → s.Agrees n) ∧ (s.subs a).enabled = false
  | .dropping rows name a _ =>
    (rows = s.catalog ∧ ∀ n ∈ s.catalog.names, s.Agrees n) ∧
      name ∈ s.keys ∧ name ∉ s.catalog.names ∧ s.entry name = a
  | .returned => s.keys ⊆ s.catalog.names ∧ ∀ n ∈ s.catalog.names, s.Agrees n

/-- The map, whatever statement is under way. -/
structure Mapped (s : Subscriptions) : Prop where
  fresh : ∀ a, (s.subs a).replicator.Fresh
  named : ∀ n ∈ s.keys, (s.subs (s.entry n)).name = n ∧ s.entry n < s.made
  unmapped : ∀ a, (∀ n ∈ s.keys, s.entry n ≠ a) → (s.subs a).replicator.Idle

/-- At most statement `k` is under way. -/
structure Held (s : Subscriptions) (k : Nat) : Prop extends Mapped s where
  only : QuietBut (· = .returned) s.calls k
  fits : ∀ n ∈ s.keys, s.Fits (s.calls k) (s.entry n)
  progress : s.Progress (s.calls k)

theorem Mapped.entry_inj {s : Subscriptions} (h : s.Mapped) {m n : String} (hm : m ∈ s.keys)
    (hn : n ∈ s.keys) (heq : s.entry m = s.entry n) : m = n := by
  rw [← (h.named m hm).1, ← (h.named n hn).1, heq]

end Subscriptions

theorem Sub.Settled.internal {s : Sub} (h : s.Settled) (hf : s.replicator.Fresh) {e : ControlEvent}
    (he : e.internal = true) : ({ s with replicator := s.replicator.step e } : Sub).Settled :=
  ⟨fun hon => (h.1 hon).internal hf he, fun hoff => (h.2 hoff).internal he⟩

theorem Sub.Halting.internal {s : Sub} {j : Nat} (h : s.Halting j) {e : ControlEvent}
    (he : e.internal = true) : ({ s with replicator := s.replicator.step e } : Sub).Halting j := by
  rcases h with h | h
  · exact h.internal he
  · exact .inr (h.internal he)

namespace Subscriptions

variable {s : Subscriptions}

theorem setSub_self (a : Nat) (sub : Sub) : (s.setSub a sub).subs a = sub :=
  Function.update_self _ _ _

variable {a k : Nat} {sub : Sub} {p : CallPhase} {todo : Finset String} {name : String}

theorem setSub_of_ne {b : Nat} (hb : b ≠ a) (sub : Sub) : (s.setSub a sub).subs b = s.subs b :=
  Function.update_of_ne hb _ _

theorem Mapped.setSub (h : s.Mapped) (hname : sub.name = (s.subs a).name)
    (hfresh : sub.replicator.Fresh) (hidle : (∀ n ∈ s.keys, s.entry n ≠ a) → sub.replicator.Idle) :
    (s.setSub a sub).Mapped where
  fresh := fun b => by
    by_cases hb : b = a
    · subst hb
      rwa [setSub_self]
    · rw [setSub_of_ne hb]
      exact h.fresh b
  named := fun n hn => by
    refine ⟨?_, (h.named n hn).2⟩
    change ((s.setSub a sub).subs (s.entry n)).name = n
    by_cases hb : s.entry n = a
    · rw [hb, setSub_self, hname, ← hb]
      exact (h.named n hn).1
    · rw [setSub_of_ne hb]
      exact (h.named n hn).1
  unmapped := fun b hb => by
    by_cases hba : b = a
    · subst hba
      rw [setSub_self]
      exact hidle hb
    · rw [setSub_of_ne hba]
      exact h.unmapped b hb

theorem fits_setSub {b : Nat} (hb : b ≠ a) (sub : Sub) :
    (s.setSub a sub).Fits p b ↔ s.Fits p b := by
  unfold Fits
  rw [setSub_of_ne hb]

/-- A change of one subscription that keeps its flag changes nothing of
what a statement has achieved. -/
theorem Progress.setSub (h : s.Progress p) (hsub : sub.enabled = (s.subs a).enabled) :
    (s.setSub a sub).Progress p := by
  have henabled : ∀ b, ((s.setSub a sub).subs b).enabled = (s.subs b).enabled := by
    intro b
    by_cases hb : b = a
    · rw [hb, setSub_self, hsub]
    · rw [setSub_of_ne hb]
  have hagrees : ∀ n, s.Agrees n → (s.setSub a sub).Agrees n :=
    fun n hn => ⟨hn.1, (henabled _).trans hn.2⟩
  cases p with
  | written => trivial
  | visiting rows todo => exact ⟨h.1, fun n hn hnt => hagrees n (h.2 n hn hnt)⟩
  | stopping rows todo b j =>
    exact ⟨⟨h.1.1, fun n hn hnt => hagrees n (h.1.2 n hn hnt)⟩, (henabled b).trans h.2⟩
  | dropping rows name b j => exact ⟨⟨h.1.1, fun n hn => hagrees n (h.1.2 n hn)⟩, h.2⟩
  | returned => exact ⟨h.1, fun n hn => hagrees n (h.2 n hn)⟩

theorem Held.internal (h : s.Held k) (a : Nat) {e : ControlEvent} (he : e.internal = true) :
    (s.setSub a { s.subs a with replicator := (s.subs a).replicator.step e }).Held k where
  toMapped := h.toMapped.setSub rfl ((h.fresh a).step e) fun hb => (h.unmapped a hb).internal he
  only := h.only
  fits := fun n hn => by
    have hfits := h.fits n hn
    by_cases hb : s.entry n = a
    · subst hb
      change (s.setSub (s.entry n) _).Fits (s.calls k) (s.entry n)
      unfold Fits at hfits ⊢
      rw [setSub_self]
      split at hfits
      · exact hfits.internal (h.fresh _) he
      · exact hfits.internal he
    · exact (fits_setSub hb _).mpr hfits
  progress := h.progress.setSub rfl

/-! ## The steps of a statement -/

theorem held_setCall (hm : s.Mapped) (honly : QuietBut (· = .returned) s.calls k)
    (hfits : ∀ n ∈ s.keys, s.Fits p (s.entry n)) (hprogress : s.Progress p) :
    (s.setCall k p).Held k := by
  have hp : (s.setCall k p).calls k = p := Function.update_self _ _ _
  refine ⟨⟨hm.fresh, hm.named, hm.unmapped⟩, honly.update p, ?_, ?_⟩
  · rw [hp]
    exact hfits
  · rw [hp]
    cases p <;> exact hprogress

/-- A statement that is not waiting finds every subscription as its flag
says. -/
theorem Held.settled (h : s.Held k) (hp : ∀ a, (s.calls k).stopOf a = none) :
    ∀ n ∈ s.keys, (s.subs (s.entry n)).Settled := by
  intro n hn
  have := h.fits n hn
  rwa [Fits, hp] at this

theorem fits_of_settled (h : ∀ n ∈ s.keys, (s.subs (s.entry n)).Settled)
    (hp : ∀ a, p.stopOf a = none) : ∀ n ∈ s.keys, s.Fits p (s.entry n) := by
  intro n hn
  rw [Fits, hp]
  exact h n hn

theorem visited_erase {t : Subscriptions}
    (hold : ∀ n ∈ t.catalog.names, n ∉ todo → n ≠ name → t.Agrees n) (hname : t.Agrees name) :
    ∀ n ∈ t.catalog.names, n ∉ todo.erase name → t.Agrees n := by
  intro n hn hnt
  by_cases hne : n = name
  · exact hne ▸ hname
  · exact hold n hn (fun h => hnt (Finset.mem_erase.mpr ⟨hne, h⟩)) hne

/-- A row that the map has, with another flag: the subscription changes,
the others stay as they are. -/
theorem Held.agrees_setSub (h : s.Held k) {n : String} (hname : name ∈ s.keys) (hne : n ≠ name)
    (hn : s.Agrees n) (sub : Sub) : (s.setSub (s.entry name) sub).Agrees n := by
  refine ⟨hn.1, ?_⟩
  change ((s.setSub (s.entry name) sub).subs (s.entry n)).enabled = _
  rw [setSub_of_ne fun heq => hne (h.entry_inj hn.1 hname heq)]
  exact hn.2

theorem Held.visit_stop (h : s.Held k) (hcall : s.calls k = .visiting s.catalog todo)
    (hname : name ∈ s.keys) (hon : (s.subs (s.entry name)).enabled = true)
    (hoff : s.catalog.enabled name = false)
    (hstart : ∀ i, (s.subs (s.entry name)).replicator.loops i ≠ .starting) :
    ((s.setSub (s.entry name) { (s.subs (s.entry name)).stop with enabled := false }).setCall k
      (.stopping s.catalog (todo.erase name) (s.entry name)
        (s.subs (s.entry name)).replicator.called)).Held k := by
  have hsettled := h.settled (by simp [hcall, stopOf])
  have hstopping := ((hsettled name hname).1 hon).call hstart
  have hvisited := h.progress
  rw [hcall] at hvisited
  refine held_setCall (h.toMapped.setSub rfl ((h.fresh _).step .call) fun hb =>
    absurd rfl (hb name hname)) h.only (fun n hn => ?_) ⟨⟨rfl, ?_⟩, ?_⟩
  · by_cases hb : s.entry n = s.entry name
    · change (s.setSub (s.entry name) _).Fits _ (s.entry n)
      rw [hb, Fits, setSub_self]
      simp only [stopOf, if_true]
      exact .inl hstopping
    · refine (fits_setSub hb _).mpr ?_
      rw [Fits]
      simp only [stopOf, if_neg hb]
      exact hsettled n hn
  · refine visited_erase (fun n hn hnt hne => h.agrees_setSub hname hne (hvisited.2 n hn hnt) _)
      ⟨hname, ?_⟩
    change ((s.setSub (s.entry name) _).subs (s.entry name)).enabled = _
    rw [setSub_self]
    exact hoff.symm
  · rw [setSub_self]

theorem Held.visit_start (h : s.Held k) (hcall : s.calls k = .visiting s.catalog todo)
    (hname : name ∈ s.keys) (hoff : (s.subs (s.entry name)).enabled = false)
    (hon : s.catalog.enabled name = true) :
    ((s.setSub (s.entry name) { (s.subs (s.entry name)).start with enabled := true }).setCall k
      (.visiting s.catalog (todo.erase name))).Held k := by
  have hsettled := h.settled (by simp [hcall, stopOf])
  have hactive := ((hsettled name hname).2 hoff).spawn
  have hvisited := h.progress
  rw [hcall] at hvisited
  refine held_setCall (h.toMapped.setSub rfl ((h.fresh _).step .spawn) fun hb =>
    absurd rfl (hb name hname)) h.only (fits_of_settled (fun n hn => ?_) fun _ => rfl) ⟨rfl, ?_⟩
  · by_cases hb : s.entry n = s.entry name
    · change ((s.setSub (s.entry name) _).subs (s.entry n)).Settled
      rw [hb, setSub_self]
      exact ⟨fun _ => hactive, nofun⟩
    · change ((s.setSub (s.entry name) _).subs (s.entry n)).Settled
      rw [setSub_of_ne hb]
      exact hsettled n hn
  · refine visited_erase (fun n hn hnt hne => h.agrees_setSub hname hne (hvisited.2 n hn hnt) _)
      ⟨hname, ?_⟩
    change ((s.setSub (s.entry name) _).subs (s.entry name)).enabled = _
    rw [setSub_self]
    exact hon.symm

theorem addSub_entry_self (name : String) (sub : Sub) : (s.addSub name sub).entry name = s.made :=
  Function.update_self _ _ _

theorem addSub_subs_made (name : String) (sub : Sub) : (s.addSub name sub).subs s.made = sub :=
  Function.update_self _ _ _

/-- The entries that the map had stay as they are. -/
theorem Mapped.addSub_old (h : s.Mapped) {n : String} (hname : name ∉ s.keys) (hn : n ∈ s.keys)
    (sub : Sub) :
    (s.addSub name sub).entry n = s.entry n ∧
      (s.addSub name sub).subs (s.entry n) = s.subs (s.entry n) := by
  have hne : n ≠ name := fun heq => hname (heq ▸ hn)
  exact ⟨Function.update_of_ne hne _ _, Function.update_of_ne (h.named n hn).2.ne _ _⟩

/-- A subscription that the map did not have. -/
theorem Mapped.addSub (h : s.Mapped) (hname : name ∉ s.keys) (hsub : sub.name = name)
    (hfresh : sub.replicator.Fresh) : (s.addSub name sub).Mapped where
  fresh := fun b => by
    by_cases hb : b = s.made
    · subst hb
      rwa [addSub_subs_made]
    · exact (congrArg (fun t : Sub => t.replicator.Fresh) (Function.update_of_ne hb _ _)).mpr
        (h.fresh b)
  named := fun n hn => by
    rcases Finset.mem_insert.mp hn with rfl | hn
    · rw [addSub_entry_self, addSub_subs_made]
      exact ⟨hsub, Nat.lt_succ_self _⟩
    · obtain ⟨hentry, hsubs⟩ := h.addSub_old hname hn sub
      rw [hentry, hsubs]
      exact ⟨(h.named n hn).1, Nat.lt_succ_of_lt (h.named n hn).2⟩
  unmapped := fun b hb => by
    have hmade : b ≠ s.made := fun heq =>
      hb name (Finset.mem_insert_self _ _) ((addSub_entry_self name sub).trans heq.symm)
    refine (congrArg (fun t : Sub => t.replicator.Idle) (Function.update_of_ne hmade _ _)).mpr
      (h.unmapped b fun n hn heq => ?_)
    exact hb n (Finset.mem_insert_of_mem hn) ((h.addSub_old hname hn sub).1.trans heq)

/-- The visit of a row that the map does not have. -/
theorem Held.visit_new (h : s.Held k) (hcall : s.calls k = .visiting s.catalog todo)
    (hname : name ∉ s.keys) (hsub : sub.name = name) (hfresh : sub.replicator.Fresh)
    (hsettled : sub.Settled) (hon : sub.enabled = s.catalog.enabled name) :
    ((s.addSub name sub).setCall k (.visiting s.catalog (todo.erase name))).Held k := by
  have hold := h.settled (by simp [hcall, stopOf])
  have hvisited := h.progress
  rw [hcall] at hvisited
  refine held_setCall (h.toMapped.addSub hname hsub hfresh) h.only
    (fits_of_settled (fun n hn => ?_) fun _ => rfl) ⟨rfl, ?_⟩
  · rcases Finset.mem_insert.mp hn with rfl | hn
    · rw [addSub_entry_self, addSub_subs_made]
      exact hsettled
    · obtain ⟨hentry, hsubs⟩ := h.addSub_old hname hn sub
      rw [hentry, hsubs]
      exact hold n hn
  · refine visited_erase (fun n hn hnt _ => ?_) ⟨Finset.mem_insert_self _ _, ?_⟩
    · obtain ⟨hkey, hagrees⟩ := hvisited.2 n hn hnt
      obtain ⟨hentry, hsubs⟩ := h.addSub_old hname hkey sub
      refine ⟨Finset.mem_insert_of_mem hkey, ?_⟩
      rw [hentry, hsubs]
      exact hagrees
    · rw [addSub_entry_self, addSub_subs_made]
      exact hon

theorem Held.visitRow (h : s.Held k) (hcall : s.calls k = .visiting s.catalog todo)
    (hmem : name ∈ todo) (hseq : s.Sequential (.visit k name)) :
    (s.visitRow k s.catalog (todo.erase name) name).Held k := by
  have hvisited := h.progress
  rw [hcall] at hvisited
  unfold Subscriptions.visitRow
  by_cases hname : name ∈ s.keys
  · simp only [hname, if_true]
    split_ifs with heq hon
    · refine held_setCall h.toMapped h.only
        (fits_of_settled (h.settled (by simp [hcall, stopOf])) fun _ => rfl) ⟨rfl, ?_⟩
      exact visited_erase (fun n hn hnt _ => hvisited.2 n hn hnt) ⟨hname, heq⟩
    · exact h.visit_start hcall hname (by simpa [hon] using heq) hon
    · have hoff : s.catalog.enabled name = false := by simpa using hon
      have hwas : (s.subs (s.entry name)).enabled = true := by simpa [hoff] using heq
      refine h.visit_stop hcall hname hwas hoff (hseq.2 _ ?_)
      simp [stopCalled, hcall, hmem, hname, hwas, hoff]
  · simp only [hname, if_false]
    refine h.visit_new hcall hname ?_ ?_ ?_ ?_ <;> cases hon : s.catalog.enabled name
    · rfl
    · rfl
    · exact Control.fresh_init
    · exact Control.fresh_init.step .spawn
    · exact ⟨nofun, fun _ => Control.idle_init⟩
    · exact ⟨fun _ => Control.idle_init.spawn, nofun⟩
    · rfl
    · rfl

theorem halting_returned {j : Nat} (h : (s.subs a).Halting j) (hret : s.stopReturned a j = true) :
    (s.subs a).replicator.Idle := by
  rcases h with h | h
  · unfold stopReturned at hret
    split at hret
    next o ho => exact absurd ho (h.not_returned o)
    next => cases hret
  · exact h

theorem Held.resume (h : s.Held k) {rows : Rows} {j : Nat}
    (hcall : s.calls k = .stopping rows todo a j) (hret : s.stopReturned a j = true) :
    (s.setCall k (.visiting rows todo)).Held k := by
  have hprogress := h.progress
  rw [hcall] at hprogress
  obtain ⟨hvisited, hoff⟩ := hprogress
  refine held_setCall h.toMapped h.only (fits_of_settled (fun n hn => ?_) fun _ => rfl) hvisited
  have hfits := h.fits n hn
  rw [hcall, Fits] at hfits
  by_cases hb : s.entry n = a
  · simp only [stopOf, hb, if_true] at hfits
    have hidle := halting_returned hfits hret
    rw [hb]
    exact ⟨fun hon => absurd (hoff.symm.trans hon) Bool.false_ne_true, fun _ => hidle⟩
  · simpa only [stopOf, hb, if_false] using hfits

theorem Held.sweep (h : s.Held k) (hcall : s.calls k = .visiting s.catalog ∅)
    (hname : name ∈ s.keys) (hdropped : name ∉ s.catalog.names)
    (hstart : ∀ i, (s.subs (s.entry name)).replicator.loops i ≠ .starting) :
    ((s.setSub (s.entry name) (s.subs (s.entry name)).stop).setCall k
      (.dropping s.catalog name (s.entry name)
        (s.subs (s.entry name)).replicator.called)).Held k := by
  have hsettled := h.settled (by simp [hcall, stopOf])
  have hvisited := h.progress
  rw [hcall] at hvisited
  have hprogress : s.Progress (.dropping s.catalog name (s.entry name)
      (s.subs (s.entry name)).replicator.called) :=
    ⟨⟨rfl, fun n hn => hvisited.2 n hn (Finset.notMem_empty n)⟩, hname, hdropped, rfl⟩
  refine held_setCall (h.toMapped.setSub rfl ((h.fresh _).step .call) fun hb =>
    absurd rfl (hb name hname)) h.only (fun n hn => ?_) (hprogress.setSub rfl)
  by_cases hb : s.entry n = s.entry name
  · change (s.setSub (s.entry name) _).Fits _ (s.entry n)
    rw [hb, Fits, setSub_self]
    simp only [stopOf, if_true]
    cases hon : (s.subs (s.entry name)).enabled with
    | true => exact .inl (((hsettled name hname).1 hon).call hstart)
    | false => exact .inr ((hsettled name hname).2 hon).call
  · refine (fits_setSub hb _).mpr ?_
    rw [Fits]
    simp only [stopOf, if_neg hb]
    exact hsettled n hn

/-- The subscription that was stopped leaves the map. -/
theorem Held.delete (h : s.Held k) {rows : Rows} {j : Nat}
    (hcall : s.calls k = .dropping rows name a j) (hret : s.stopReturned a j = true) :
    (setCall { s with keys := s.keys.erase name } k (.visiting rows ∅)).Held k := by
  have hprogress := h.progress
  rw [hcall] at hprogress
  obtain ⟨⟨hrows, hagrees⟩, hname, hdropped, rfl⟩ := hprogress
  have hfits : ∀ n ∈ s.keys, if s.entry n = s.entry name then (s.subs (s.entry n)).Halting j
      else (s.subs (s.entry n)).Settled := by
    intro n hn
    have hfits := h.fits n hn
    rw [hcall, Fits] at hfits
    split
    next hb => simpa only [stopOf, hb, if_true] using hfits
    next hb => simpa only [stopOf, hb, if_false] using hfits
  refine held_setCall ⟨h.fresh, fun n hn => h.named n (Finset.mem_of_mem_erase hn), ?_⟩ h.only
    (fits_of_settled ?_ fun _ => rfl) ⟨hrows, fun n hn _ => ?_⟩
  · intro b hb
    by_cases hba : s.entry name = b
    · subst hba
      have := hfits name hname
      rw [if_pos rfl] at this
      exact halting_returned this hret
    · refine h.unmapped b fun n hn heq => ?_
      refine hb n (Finset.mem_erase.mpr ⟨?_, hn⟩) heq
      rintro rfl
      exact hba heq
  · intro n hn
    obtain ⟨hne, hn⟩ := Finset.mem_erase.mp hn
    have := hfits n hn
    rwa [if_neg fun heq => hne (h.entry_inj hn hname heq)] at this
  · obtain ⟨hkey, hflag⟩ := hagrees n hn
    refine ⟨Finset.mem_erase.mpr ⟨?_, hkey⟩, hflag⟩
    rintro rfl
    exact hdropped hn

theorem Held.finish (h : s.Held k) (hcall : s.calls k = .visiting s.catalog ∅)
    (hkeys : s.keys ⊆ s.catalog.names) : (s.setCall k .returned).Held k := by
  have hvisited := h.progress
  rw [hcall] at hvisited
  exact held_setCall h.toMapped h.only
    (fits_of_settled (h.settled (by simp [hcall, stopOf])) fun _ => rfl)
    ⟨hkeys, fun n hn => hvisited.2 n hn (Finset.notMem_empty n)⟩

theorem Held.issue (h : s.Held k) (hcalls : ∀ k, s.calls k = .returned) (sql : SubscriptionSQL) :
    (s.step (.issue sql)).Held s.issued := by
  have hsettled := h.settled (by simp [hcalls k, stopOf])
  exact held_setCall (p := .written) ⟨h.fresh, h.named, h.unmapped⟩ (fun m _ => hcalls m)
    (fun n hn => hsettled n hn) trivial

/-- The rows that a statement has read are the rows there are. -/
theorem Held.rows_eq (h : s.Held k) {rows : Rows} (hcall : s.calls k = .visiting rows todo) :
    rows = s.catalog := by
  have := h.progress
  rw [hcall] at this
  exact this.1

/-- An event of a statement: those that have returned take no step, so it
is one of the statement under way. -/
theorem Held.step_call {m : Nat} (h : s.Held k) {e : SubscriptionEvent}
    (hret : s.calls m = .returned → s.step e = s) (hown : m = k → (s.step e).Held k) :
    ∃ k, (s.step e).Held k := by
  refine ⟨k, ?_⟩
  by_cases hm : m = k
  · exact hown hm
  · rwa [hret (h.only m hm)]

theorem Held.step (h : s.Held k) {e : SubscriptionEvent} (hseq : s.Sequential e) :
    ∃ k, (s.step e).Held k := by
  cases e with
  | issue sql => exact ⟨_, h.issue (hseq.1 ⟨sql, rfl⟩) sql⟩
  | internal a e =>
    refine ⟨k, ?_⟩
    simp only [Subscriptions.step]
    split
    next he => exact h.internal a he
    next => exact h
  | read m =>
    refine h.step_call (m := m) (fun hm => by simp [Subscriptions.step, hm]) ?_
    rintro rfl
    simp only [Subscriptions.step]
    split
    next hcall =>
      refine held_setCall h.toMapped h.only
        (fits_of_settled (h.settled (by simp [hcall, stopOf])) fun _ => rfl)
        ⟨rfl, fun n hn hnt => absurd hn hnt⟩
    next => exact h
  | visit m name =>
    refine h.step_call (m := m) (fun hm => by simp [Subscriptions.step, hm]) ?_
    rintro rfl
    simp only [Subscriptions.step]
    split
    next rows todo hcall =>
      obtain rfl := h.rows_eq hcall
      split
      next hmem => exact h.visitRow hcall hmem hseq
      next => exact h
    next => exact h
  | resume m =>
    refine h.step_call (m := m) (fun hm => by simp [Subscriptions.step, hm]) ?_
    rintro rfl
    simp only [Subscriptions.step]
    split
    next hcall =>
      split
      next hret => exact h.resume hcall hret
      next => exact h
    next => exact h
  | sweep m name =>
    refine h.step_call (m := m) (fun hm => by simp [Subscriptions.step, hm]) ?_
    rintro rfl
    simp only [Subscriptions.step]
    split
    next rows todo hcall =>
      obtain rfl := h.rows_eq hcall
      split
      next hcond =>
        obtain ⟨rfl, hname, hdropped⟩ := hcond
        refine h.sweep hcall hname hdropped (hseq.2 _ ?_)
        simp [stopCalled, hcall, hname, hdropped]
      next => exact h
    next => exact h
  | delete m =>
    refine h.step_call (m := m) (fun hm => by simp [Subscriptions.step, hm]) ?_
    rintro rfl
    simp only [Subscriptions.step]
    split
    next hcall =>
      split
      next hret => exact h.delete hcall hret
      next => exact h
    next => exact h
  | finish m =>
    refine h.step_call (m := m) (fun hm => by simp [Subscriptions.step, hm]) ?_
    rintro rfl
    simp only [Subscriptions.step]
    split
    next rows todo hcall =>
      obtain rfl := h.rows_eq hcall
      split
      next hcond =>
        obtain ⟨rfl, hkeys⟩ := hcond
        exact h.finish hcall hkeys
      next => exact h
    next => exact h

/-! ## The loops follow the rows -/

theorem held_init : Held {} 0 where
  fresh := fun _ => Control.fresh_init
  named := fun _ hn => absurd hn (Finset.notMem_empty _)
  unmapped := fun _ _ => Control.idle_init
  only := fun _ _ => rfl
  fits := fun _ hn => absurd hn (Finset.notMem_empty _)
  progress := ⟨Finset.Subset.refl _, fun _ hn => absurd hn (Finset.notMem_empty _)⟩

/-- A subscription with a loop is in the map, under its name. -/
theorem Held.mapped_of_alive (h : s.Held k) {i : Nat} (hi : (s.subs a).replicator.loops i ≠ .gone) :
    (s.subs a).name ∈ s.keys ∧ s.entry (s.subs a).name = a := by
  by_contra hno
  refine hi ((h.unmapped a fun n hn heq => hno ?_).1.noLoop i)
  have hname := (h.named n hn).1
  rw [heq] at hname
  rw [hname]
  exact ⟨hn, heq⟩

theorem Held.sole (h : s.Held k) {b i j : Nat} (hname : (s.subs a).name = (s.subs b).name)
    (hi : (s.subs a).replicator.loops i ≠ .gone) (hj : (s.subs b).replicator.loops j ≠ .gone) :
    a = b ∧ i = j := by
  obtain ⟨hkey, ha⟩ := h.mapped_of_alive hi
  have hb := (h.mapped_of_alive hj).2
  obtain rfl : a = b := ha.symm.trans ((congrArg s.entry hname).trans hb)
  refine ⟨rfl, ?_⟩
  have hfits := h.fits _ hkey
  rw [ha, Fits] at hfits
  split at hfits
  · cases hon : (s.subs a).enabled with
    | true => exact (hfits.1 hon).sole hi hj
    | false => exact absurd ((hfits.2 hon).1.noLoop i) hi
  · rcases hfits with hs | hidle
    · exact hs.sole hi hj
    · exact absurd (hidle.1.noLoop i) hi

theorem Held.runs_iff (h : s.Held k) (hrest : s.AtRest) (name : String) :
    s.Runs name ↔ name ∈ s.catalog.names ∧ s.catalog.enabled name = true := by
  have hsettled := h.settled (by simp [hrest.calls k, stopOf])
  have hprogress := h.progress
  rw [hrest.calls k] at hprogress
  obtain ⟨hkeys, hagrees⟩ := hprogress
  constructor
  · rintro ⟨a, i, rfl, hin⟩
    have hi : (s.subs a).replicator.loops i ≠ .gone := by
      intro hgone
      simp [hgone, LoopPhase.inLoop] at hin
    obtain ⟨hkey, ha⟩ := h.mapped_of_alive hi
    have hflag := (hagrees _ (hkeys hkey)).2
    have hset := hsettled _ hkey
    rw [ha] at hflag hset
    refine ⟨hkeys hkey, hflag ▸ ?_⟩
    by_contra hoff
    exact hi ((hset.2 (Bool.eq_false_iff.mpr hoff)).1.noLoop i)
  · rintro ⟨hn, hon⟩
    obtain ⟨hkey, hflag⟩ := hagrees name hn
    rcases ((hsettled name hkey).1 (hflag.trans hon)).1 with ⟨i, hb⟩ | ⟨i, c, hu⟩
    · exact absurd hb.phase (hrest.loops _ i).1
    · refine ⟨s.entry name, i, (h.named name hkey).1, ?_⟩
      rcases hu.phase with hp | hp <;> rw [hp] <;> rfl

/-- **The loops of the subscriptions follow the rows** in every state of a
run in which every step meets `Sequential`: no two loops of one
subscription are alive, and at rest a subscription runs exactly when its
row is there and enabled. -/
theorem loops_follow_rows {es : List SubscriptionEvent} (h : Along step Sequential {} es) :
    (∀ a b i j, ((run step {} es).subs a).name = ((run step {} es).subs b).name →
      ((run step {} es).subs a).replicator.loops i ≠ .gone →
      ((run step {} es).subs b).replicator.loops j ≠ .gone → a = b ∧ i = j) ∧
    ((run step {} es).AtRest → ∀ name, (run step {} es).Runs name ↔
      name ∈ (run step {} es).catalog.names ∧ (run step {} es).catalog.enabled name = true) := by
  obtain ⟨k, hk⟩ := Along.invariant (fun s => ∃ k, Held s k)
    (fun _ _ hs he => hs.elim fun _ hs => hs.step he) ⟨0, held_init⟩ h
  exact ⟨fun _ _ _ _ hname hi hj => hk.sole hname hi hj, hk.runs_iff⟩

/-- A subscription is created, and disabled once its loop runs. -/
def disabledRun : List SubscriptionEvent :=
  [.issue (.create "s"), .read 0, .visit 0 "s", .finish 0, .internal 0 (.loop 0 .start),
    .issue (.disable "s"), .read 1, .visit 1 "s", .internal 0 (.stop 0 .send),
    .internal 0 (.receive 0 0), .internal 0 (.stop 0 .listen), .internal 0 (.loop 0 .shutdown),
    .internal 0 (.stop 0 .acknowledge), .resume 1, .finish 1]

theorem loops_follow_disabledRun :
    Along step Sequential {} disabledRun ∧ (run step {} disabledRun).AtRest ∧
      ¬ (run step {} disabledRun).Runs "s" := by
  have hquiet : ∀ {s : Subscriptions} {e : SubscriptionEvent}, (∀ sql, e ≠ .issue sql) →
      s.stopCalled e = none → s.Sequential e := fun hissue hnone =>
    ⟨fun ⟨sql, h⟩ => absurd h (hissue sql), fun a h => nomatch hnone.symm.trans h⟩
  have h : Along step Sequential {} disabledRun := by
    refine ⟨⟨fun _ _ => rfl, nofun⟩, hquiet nofun rfl, hquiet nofun rfl, hquiet nofun rfl,
      hquiet nofun rfl, ⟨fun _ k => ?_, nofun⟩, hquiet nofun rfl, ⟨nofun, ?_⟩, hquiet nofun rfl,
      hquiet nofun rfl, hquiet nofun rfl, hquiet nofun rfl, hquiet nofun rfl, hquiet nofun rfl,
      hquiet nofun rfl, trivial⟩
    · cases k <;> rfl
    · rintro a ⟨⟩ i
      cases i <;> exact nofun
  have hrest : (run step {} disabledRun).AtRest := by
    refine ⟨fun k => ?_, fun a i => ?_⟩
    · rcases k with _ | _ | k <;> rfl
    · rcases a with _ | a <;> rcases i with _ | i <;> exact ⟨nofun, nofun⟩
  exact ⟨h, hrest, fun hruns => nomatch (((loops_follow_rows h).2 hrest "s").mp hruns).2⟩

/-- The statement that disables a subscription comes before the goroutine
of its loop has set `running`: the `Stop` is lost, and the loop runs. -/
theorem disabled_subscription_runs :
    ∃ es : List SubscriptionEvent,
      es = [.issue (.create "s"), .read 0, .visit 0 "s", .finish 0, .issue (.disable "s"), .read 1,
        .visit 1 "s", .resume 1, .finish 1, .internal 0 (.loop 0 .start)] ∧
      (run step {} es).AtRest ∧ (run step {} es).Runs "s" ∧
      (run step {} es).catalog.enabled "s" = false := by
  refine ⟨_, rfl, ⟨fun k => ?_, fun a i => ?_⟩, ⟨0, 0, rfl, rfl⟩, rfl⟩
  · rcases k with _ | _ | k <;> rfl
  · rcases a with _ | a <;> rcases i with _ | i <;> exact ⟨nofun, nofun⟩

end Subscriptions

end MyDuck.Logrepl
