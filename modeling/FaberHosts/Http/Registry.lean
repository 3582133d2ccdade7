import FaberHosts.Http.Calls
import FaberHosts.Lib.Custody

/-!
# What the indexes say in every state

The requests index and the writers index are desks: keys filed under connections, taken
out by the calls that answer them.  `Registry` is what every step keeps of them, whatever
the other calls do, as long as no two calls accept from one connection at a time.
-/

namespace FaberHosts.Http
open FaberHosts.Lib

def requestDesk (v : View) (holds : Nat → Hold) : Desk String Nat where
  index := v.requests
  owner := Phase.pendingId ∘ v.phase
  held := Hold.request ∘ holds

def writerDesk (v : View) (holds : Nat → Hold) : Desk Int Nat where
  index := v.writers
  owner := Phase.writer? ∘ v.phase
  held := Hold.writer ∘ holds

/-- A request id that was given out before. -/
def IssuedBelow (number : Nat) (id : String) : Prop := ∃ n < number, id = requestId n

/-- Ids and connections are numbered as they come up, and a request a call has read is
    nobody else's. -/
structure Numbered (v : View) (holds : Nat → Hold) : Prop where
  stored : ∀ c ∈ v.stored, c < v.nextConnection
  polling : ∀ t, ∀ c ∈ (holds t).polling, c < v.nextConnection
  unborn : ∀ c, v.nextConnection ≤ c → v.phase c = .idle
  named : ∀ c r, (v.phase c).requestId? = some r → IssuedBelow v.nextRequest r
  single : ∀ c c' r, (v.phase c).requestId? = some r → (v.phase c').requestId? = some r → c = c'
  issued : ∀ t r, (holds t).fresh = some r → IssuedBelow v.nextRequest r
  unnamed : ∀ t r c, (holds t).fresh = some r → (v.phase c).requestId? ≠ some r
  unshared : ∀ t u r, (holds t).fresh = some r → (holds u).fresh = some r → t = u
  written : ∀ c w, (v.phase c).writer? = some w → w < v.nextWriter
  marking : ∀ t c, (holds t).marking = some c → v.phase c = .idle ∧ c < v.nextConnection
  alone : ∀ t u c, (holds t).marking = some c → (holds u).marking = some c → t = u

/-- What a call is about to remove from the indexes belongs to no stored connection. -/
structure Removals (v : View) (holds : Nat → Hold) : Prop where
  swept : ∀ t, ∀ c ∈ (holds t).swept, c ∉ v.stored ∧ c < v.nextConnection
  requestIds : ∀ t, ∀ r ∈ (holds t).requestIds, IssuedBelow v.nextRequest r ∧
    (∀ u, (holds u).fresh ≠ some r) ∧ ∀ c ∈ v.stored, (v.phase c).requestId? ≠ some r
  writers : ∀ t, ∀ w ∈ (holds t).writers, w < v.nextWriter ∧
    ∀ c ∈ v.stored, (v.phase c).writer? ≠ some w

structure Registry (v : View) (holds : Nat → Hold) : Prop where
  requests : (requestDesk v holds).Agrees
  writers : (writerDesk v holds).Agrees
  numbered : Numbered v holds
  removals : Removals v holds

theorem IssuedBelow.mono {a b : Nat} {r : String} (h : IssuedBelow a r) (hab : a ≤ b) :
    IssuedBelow b r := by
  obtain ⟨n, hn, hr⟩ := h
  exact ⟨n, by omega, hr⟩

theorem not_issuedBelow_self (n : Nat) : ¬ IssuedBelow n (requestId n) := by
  rintro ⟨m, hm, hr⟩
  have := requestId_injective hr
  omega

theorem issuedBelow_succ_self (n : Nat) : IssuedBelow (n + 1) (requestId n) :=
  ⟨n, by omega, rfl⟩

variable {cut late : Prop} {v v' : View} {holds : Nat → Hold} {t : Nat} {h h' : Hold}

theorem Numbered.quiet (inv : Numbered v holds) (hphase : ∀ c, v'.phase c = v.phase c)
    (hstored : ∀ c ∈ v'.stored, c ∈ v.stored) (hconnection : v'.nextConnection = v.nextConnection)
    (hrequest : v.nextRequest ≤ v'.nextRequest) (hnextWriter : v.nextWriter ≤ v'.nextWriter)
    (hpolling : ∀ c ∈ h'.polling, c ∈ v.stored ∨ c ∈ (holds t).polling)
    (hfresh : h'.fresh = none ∨ h'.fresh = (holds t).fresh)
    (hmarking : h'.marking = none ∨ h'.marking = (holds t).marking) :
    Numbered v' (Function.update holds t h') := by
  obtain ⟨stored, polling, unborn, named, single, issued, unnamed, unshared, written,
    marking, alone⟩ := inv
  constructor
  · grind
  · grind
  · grind
  · intro c r hc
    exact (named c r (by rw [← hphase]; exact hc)).mono hrequest
  · grind
  · grind [IssuedBelow.mono]
  · grind
  · grind
  · grind
  · grind
  · grind

theorem Numbered.issue (inv : Numbered v holds)
    (hmarking : ∀ c, h'.marking = some c → v.phase c = .idle ∧ c < v.nextConnection ∧
      ∀ u, u ≠ t → (holds u).marking ≠ some c)
    (hfresh : h'.fresh = some (requestId v.nextRequest)) (hpolling : h'.polling = []) :
    Numbered { v with nextRequest := v.nextRequest + 1 } (Function.update holds t h') := by
  obtain ⟨stored, polling, unborn, named, single, issued, unnamed, unshared, written,
    marking, alone⟩ := inv
  constructor
  · exact stored
  · grind
  · exact unborn
  · intro c r hc
    exact (named c r hc).mono (by simp)
  · exact single
  · grind [IssuedBelow.mono, issuedBelow_succ_self]
  · grind [not_issuedBelow_self]
  · grind [not_issuedBelow_self]
  · exact written
  · grind
  · grind

/-- A connection changes its phase to one of the request the call holds for it. -/
theorem Numbered.setPhase (inv : Numbered v holds) {c : Nat} {phase : Phase}
    (hc : c < v'.nextConnection) (hphase : ∀ other, v'.phase other = if other = c then phase else v.phase other)
    (hname : ∀ r, phase.requestId? = some r →
      (holds t).fresh = some r ∨ (v.phase c).requestId? = some r)
    (hwriter : ∀ w, phase.writer? = some w → w < v'.nextWriter)
    (hunmarked : ∀ u, u ≠ t → (holds u).marking ≠ some c)
    (hstored : ∀ c' ∈ v'.stored, c' ∈ v.stored ∨ c' = c)
    (hconnection : v.nextConnection ≤ v'.nextConnection)
    (hborn : ∀ c', v'.nextConnection ≤ c' → v.nextConnection ≤ c')
    (hrequest : v'.nextRequest = v.nextRequest) (hnextWriter : v.nextWriter ≤ v'.nextWriter)
    (hpolling : h'.polling = []) (hfresh : h'.fresh = none) (hmarking : h'.marking = none) :
    Numbered v' (Function.update holds t h') := by
  obtain ⟨stored, polling, unborn, named, single, issued, unnamed, unshared, written,
    marking, alone⟩ := inv
  constructor
  · grind
  · grind
  · grind
  · grind
  · grind
  · grind
  · grind
  · grind
  · grind
  · grind
  · grind

/-- No other call reads from the connection this one reads from until it is marked. -/
def Apart (holds : Nat → Hold) (t : Nat) (h' : Hold) : Prop :=
  ∀ c u, h'.marking = some c → u ≠ t → (holds u).marking ≠ some c

theorem Numbered.step (inv : Numbered v holds) (hact : Act cut late v (holds t) v' h')
    (hapart : Apart holds t h')
    (hrequest : ∀ r c, (holds t).request = some (r, c) → v.phase c = .pending r)
    (hwriter : ∀ w c, (holds t).writer = some (w, c) → (v.phase c).writer? = some w) :
    Numbered v' (Function.update holds t h') := by
  have hmarked : ∀ c, v.phase c ≠ .idle → ∀ u, (holds u).marking ≠ some c := by
    intro c hc u hu
    exact hc (inv.marking u c hu).1
  have hborn : ∀ c, v.phase c ≠ .idle → c < v.nextConnection := by
    intro c hc
    by_contra hle
    exact hc (inv.unborn c (by omega))
  generalize hh : holds t = h at hact hrequest hwriter
  cases hact with
  | read c cs hidle =>
    refine inv.issue ?_ rfl rfl
    intro other hother
    obtain rfl : c = other := by simpa using hother
    refine ⟨hidle, inv.polling t c (by simp [hh]), fun u hu => hapart c u rfl hu⟩
  | admitted => exact inv.issue (by simp) rfl rfl
  | mark r c =>
    obtain ⟨hidle, hlt⟩ := inv.marking t c (by simp [hh])
    refine inv.setPhase hlt (fun other => Function.update_apply _ _ _ _) ?_ (by simp) ?_
      (fun _ => Or.inl) le_rfl (fun _ => id) rfl le_rfl rfl rfl rfl
    · intro r' hr'
      exact Or.inl (by rw [hh]; simpa using hr')
    · intro u hu hmarking
      exact hu (inv.alone u t c hmarking (by simp [hh]))
  | store r listener =>
    refine inv.setPhase (Nat.lt_succ_self _) (fun other => Function.update_apply _ _ _ _) ?_
      (by simp) ?_ ?_ (Nat.le_succ _) (fun c' hc' => by simp at hc'; omega) rfl le_rfl rfl rfl rfl
    · intro r' hr'
      exact Or.inl (by rw [hh]; simpa using hr')
    · intro u hu hmarking
      have := (inv.marking u _ hmarking).2
      omega
    · intro c' hc'
      simpa [or_comm] using hc'
  | answered r c =>
    have hpending := hrequest r c rfl
    refine inv.setPhase (hborn c (by simp [hpending])) (fun other => Function.update_apply _ _ _ _)
      (by simp) (by simp) (fun u _ => hmarked c (by simp [hpending]) u) (fun _ => Or.inl) le_rfl
      (fun _ => id) rfl le_rfl rfl rfl rfl
  | opened r c =>
    have hpending := hrequest r c rfl
    refine inv.setPhase (hborn c (by simp [hpending])) (fun other => Function.update_apply _ _ _ _)
      ?_ ?_ (fun u _ => hmarked c (by simp [hpending]) u) (fun _ => Or.inl) le_rfl
      (fun _ => id) rfl (by simp) rfl rfl rfl
    · intro r' hr'
      exact Or.inr (by simpa [hpending] using hr')
    · intro w hw
      obtain rfl : v.nextWriter = w := by simpa using hw
      simp
  | finished w c =>
    have hstreaming := hwriter w c rfl
    have hne : v.phase c ≠ .idle := by
      intro hidle
      simp [hidle] at hstreaming
    refine inv.setPhase (hborn c hne) (fun other => Function.update_apply _ _ _ _)
      (by simp) (by simp) (fun u _ => hmarked c hne u) (fun _ => Or.inl) le_rfl
      (fun _ => id) rfl le_rfl rfl rfl rfl
  | _ =>
    -- the other steps leave the phases alone
    clear hmarked hborn hapart hrequest hwriter
    apply inv.quiet <;> grind

/-- A step that takes up nothing to remove, where no stored connection gets a name that is
    about to be removed. -/
theorem Removals.quiet (inv : Removals v holds)
    (hstored : ∀ c ∈ v'.stored, c ∈ v.stored ∨ c = v.nextConnection)
    (hconnection : v.nextConnection ≤ v'.nextConnection)
    (hrequest : v.nextRequest ≤ v'.nextRequest) (hnextWriter : v.nextWriter ≤ v'.nextWriter)
    (hname : ∀ c ∈ v'.stored, ∀ r, (v'.phase c).requestId? = some r →
      c ∈ v.stored ∧ (v.phase c).requestId? = some r ∨ (holds t).fresh = some r)
    (hwriter : ∀ c ∈ v'.stored, ∀ w, (v'.phase c).writer? = some w →
      c ∈ v.stored ∧ (v.phase c).writer? = some w ∨ v.nextWriter ≤ w)
    (hswept : ∀ c ∈ h'.swept, c ∈ (holds t).swept ∨ c ∉ v'.stored ∧ c < v'.nextConnection)
    (hrequestIds : ∀ r ∈ h'.requestIds, r ∈ (holds t).requestIds)
    (hwriters : ∀ w ∈ h'.writers, w ∈ (holds t).writers)
    (hfresh : ∀ r, h'.fresh = some r → (holds t).fresh = some r ∨ ¬ IssuedBelow v.nextRequest r) :
    Removals v' (Function.update holds t h') := by
  obtain ⟨swept, requestIds, writers⟩ := inv
  constructor
  · grind
  · intro u r hr
    have hold : ∃ u, r ∈ (holds u).requestIds := by grind
    obtain ⟨u, hr⟩ := hold
    obtain ⟨hissued, hunread, hunnamed⟩ := requestIds u r hr
    refine ⟨hissued.mono hrequest, ?_, ?_⟩
    · grind
    · grind
  · intro u w hw
    have hold : ∃ u, w ∈ (holds u).writers := by grind
    obtain ⟨u, hw⟩ := hold
    grind

theorem Removals.step (inv : Removals v holds) (hnumbered : Numbered v holds)
    (hwriters : (writerDesk v holds).Agrees) (hact : Act cut late v (holds t) v' h')
    (hrequest : ∀ r c, (holds t).request = some (r, c) → v.phase c = .pending r) :
    Removals v' (Function.update holds t h') := by
  have hbelow := hnumbered.stored
  generalize hh : holds t = h at hact hrequest
  cases hact with
  | visit c cs rs ws next =>
    obtain ⟨hunstored, hlt⟩ := inv.swept t c (by simp [hh])
    obtain ⟨swept, requestIds, writers⟩ := inv
    -- what the phase of a swept connection names belongs to no stored one
    have hname : ∀ r ∈ (v.phase c).requestId?.toList, IssuedBelow v.nextRequest r ∧
        (∀ u, (holds u).fresh ≠ some r) ∧ ∀ c ∈ v.stored, (v.phase c).requestId? ≠ some r := by
      intro r hr
      have hr : (v.phase c).requestId? = some r := by simpa using hr
      refine ⟨hnumbered.named c r hr, fun u hu => hnumbered.unnamed u r c hu hr, ?_⟩
      intro other hother hsame
      exact hunstored (hnumbered.single c other r hr hsame ▸ hother)
    have hwriter : ∀ w ∈ (v.phase c).writer?.toList, w < v.nextWriter ∧
        ∀ c ∈ v.stored, (v.phase c).writer? ≠ some w := by
      intro w hw
      have hw : (v.phase c).writer? = some w := by simpa using hw
      refine ⟨hnumbered.written c w hw, ?_⟩
      intro other hother hsame
      exact hunstored (hwriters.single w c other hw hsame ▸ hother)
    constructor
    · grind
    · grind
    · grind
  | opened r c =>
    have hpending := hrequest r c rfl
    apply inv.quiet <;> grind
  | read | admitted => apply inv.quiet <;> grind [not_issuedBelow_self]
  | _ =>
    -- no id is given out here, so what is already about to be removed stays apart
    clear hnumbered hwriters hrequest
    apply inv.quiet <;> grind

/-! ## The moves of the two desks -/

/-- A stored connection that no call is dropping. -/
def Safe (v : View) (holds : Nat → Hold) (c : Nat) : Prop :=
  c ∈ v.stored ∧ ∀ t, (holds t).dropping ≠ some c

theorem requestDesk_update (v : View) (holds : Nat → Hold) (t : Nat) (h : Hold) :
    requestDesk v (Function.update holds t h) =
      { requestDesk v holds with held := Function.update (requestDesk v holds).held t h.request } := by
  simp only [requestDesk, Function.comp_update]

theorem writerDesk_update (v : View) (holds : Nat → Hold) (t : Nat) (h : Hold) :
    writerDesk v (Function.update holds t h) =
      { writerDesk v holds with held := Function.update (writerDesk v holds).held t h.writer } := by
  simp only [writerDesk, Function.comp_update]

theorem requestDesk_phase (v : View) (holds : Nat → Hold) (c : Nat) (phase : Phase) :
    requestDesk { v with phase := Function.update v.phase c phase } holds =
      { requestDesk v holds with
        owner := Function.update (requestDesk v holds).owner c phase.pendingId } := by
  simp only [requestDesk, Function.comp_update]

theorem writerDesk_phase (v : View) (holds : Nat → Hold) (c : Nat) (phase : Phase) :
    writerDesk { v with phase := Function.update v.phase c phase } holds =
      { writerDesk v holds with
        owner := Function.update (writerDesk v holds).owner c phase.writer? } := by
  simp only [writerDesk, Function.comp_update]

theorem Registry.pending_of_request (inv : Registry v holds) {r : String} {c : Nat}
    (h : (holds t).request = some (r, c)) : v.phase c = .pending r :=
  Phase.pendingId_eq_some_iff.mp (inv.requests.hand t r c h)

theorem Registry.writer_of_held (inv : Registry v holds) {w : Int} {c : Nat}
    (h : (holds t).writer = some (w, c)) : (v.phase c).writer? = some w :=
  inv.writers.hand t w c h

theorem Registry.requestMove (inv : Registry v holds) (hact : Act cut late v (holds t) v' h') :
    (requestDesk v holds).Move t
      (fun c => Safe v' (Function.update holds t h') c ∧ ¬ cut)
      (requestDesk v' (Function.update holds t h')) := by
  rw [requestDesk_update]
  have hheld : (requestDesk v holds).held t = (holds t).request := rfl
  generalize hh : holds t = h at hact hheld
  cases hact with
  | keep => exact .same hheld
  | mark r c =>
    obtain ⟨hidle, hlt⟩ := inv.numbered.marking t c (by simp [hh])
    rw [requestDesk_phase]
    refine .grant ?_ ?_ hheld
    · simp [requestDesk, hidle]
    · intro other hother
      refine inv.numbered.unnamed t r other (by simp [hh]) ?_
      rw [Phase.pendingId_eq_some_iff.mp hother]
      rfl
  | store r listener =>
    have hidle := inv.numbered.unborn v.nextConnection le_rfl
    have hdesk : requestDesk { v with
        stored := v.nextConnection :: v.stored
        phase := Function.update v.phase v.nextConnection (.pending r)
        listener := Function.update v.listener v.nextConnection listener
        nextConnection := v.nextConnection + 1 } holds =
        { requestDesk v holds with
          owner := Function.update (requestDesk v holds).owner v.nextConnection (some r) } :=
      requestDesk_phase v holds v.nextConnection (.pending r)
    rw [hdesk]
    refine .grant ?_ ?_ hheld
    · simp [requestDesk, hidle]
    · intro other hother
      refine inv.numbered.unnamed t r other (by simp [hh]) ?_
      rw [Phase.pendingId_eq_some_iff.mp hother]
      rfl
  | file r c hstored => exact .file hheld
  | take r c hindex => exact .take hindex hheld
  | lost r c hlost =>
    refine .leave ?_
    intro key id hkey hsafe
    obtain ⟨rfl, rfl⟩ : r = key ∧ c = id := by simpa [hheld] using hkey
    exact hlost hsafe.1.1
  | takeOut r c => exact .same hheld
  | answered r c =>
    rw [requestDesk_phase]
    exact .settle hheld
  | mismatched r c hphase =>
    exact absurd (inv.pending_of_request (t := t) (by simp [hh])) hphase
  | misfiled r c hphase =>
    exact absurd (inv.pending_of_request (t := t) (by simp [hh])) hphase
  | opened r c =>
    have hdesk : requestDesk { v with
        nextWriter := v.nextWriter + 1
        phase := Function.update v.phase c (.streaming r v.nextWriter) } holds =
        { requestDesk v holds with
          owner := Function.update (requestDesk v holds).owner c none } :=
      requestDesk_phase v holds c (.streaming r v.nextWriter)
    rw [hdesk]
    exact .settle hheld
  | openFailed r c =>
    refine .leave ?_
    intro key id hkey hsafe
    obtain ⟨rfl, rfl⟩ : r = key ∧ c = id := by simpa [hheld] using hkey
    exact hsafe.1.2 t (by simp)
  | finished w c =>
    obtain ⟨r, hstreaming⟩ := Phase.writer?_eq_some_iff.mp
      (inv.writer_of_held (t := t) (w := w) (c := c) (by simp [hh]))
    have hnone : (requestDesk v holds).owner c = none := by simp [requestDesk, hstreaming]
    rw [requestDesk_phase, Phase.pendingId_idle, Desk.update_owner_none hnone]
    exact .same hheld
  | forgotRequests rs ws next =>
    refine .remove rs hheld ?_
    intro r c hr hindex hsafe
    obtain ⟨hissued, hunread, hunnamed⟩ := inv.removals.requestIds t r (by simpa [hh] using hr)
    have hpending := Phase.pendingId_eq_some_iff.mp (inv.requests.filed r c hindex)
    exact hunnamed c hsafe.1.1 (by simp [hpending])
  | _ => exact .same hheld

theorem Registry.writerMove (inv : Registry v holds) (hact : Act cut late v (holds t) v' h') :
    (writerDesk v holds).Move t
      (fun c => Safe v' (Function.update holds t h') c ∧ ¬ cut)
      (writerDesk v' (Function.update holds t h')) := by
  rw [writerDesk_update]
  have hheld : (writerDesk v holds).held t = (holds t).writer := rfl
  generalize hh : holds t = h at hact hheld
  cases hact with
  | keep => exact .same hheld
  | mark r c =>
    obtain ⟨hidle, hlt⟩ := inv.numbered.marking t c (by simp [hh])
    have hnone : (writerDesk v holds).owner c = none := by simp [writerDesk, hidle]
    rw [writerDesk_phase, Phase.writer?_pending, Desk.update_owner_none hnone]
    exact .same hheld
  | store r listener =>
    have hidle := inv.numbered.unborn v.nextConnection le_rfl
    have hnone : (writerDesk v holds).owner v.nextConnection = none := by simp [writerDesk, hidle]
    have hdesk : writerDesk { v with
        stored := v.nextConnection :: v.stored
        phase := Function.update v.phase v.nextConnection (.pending r)
        listener := Function.update v.listener v.nextConnection listener
        nextConnection := v.nextConnection + 1 } holds = writerDesk v holds := by
      rw [← Desk.update_owner_none hnone]
      exact writerDesk_phase v holds v.nextConnection (.pending r)
    rw [hdesk]
    exact .same hheld
  | answered r c =>
    have hpending := inv.pending_of_request (t := t) (r := r) (c := c) (by simp [hh])
    have hnone : (writerDesk v holds).owner c = none := by simp [writerDesk, hpending]
    rw [writerDesk_phase, Phase.writer?_idle, Desk.update_owner_none hnone]
    exact .same hheld
  | mismatched r c hphase =>
    exact absurd (inv.pending_of_request (t := t) (by simp [hh])) hphase
  | misfiled r c hphase =>
    exact absurd (inv.pending_of_request (t := t) (by simp [hh])) hphase
  | opened r c =>
    have hpending := inv.pending_of_request (t := t) (r := r) (c := c) (by simp [hh])
    have hdesk : writerDesk { v with
        nextWriter := v.nextWriter + 1
        phase := Function.update v.phase c (.streaming r v.nextWriter) } holds =
        { writerDesk v holds with
          owner := Function.update (writerDesk v holds).owner c (some v.nextWriter) } :=
      writerDesk_phase v holds c (.streaming r v.nextWriter)
    rw [hdesk]
    refine .grant ?_ ?_ hheld
    · simp [writerDesk, hpending]
    · intro other hother
      exact absurd (inv.numbered.written other v.nextWriter hother) (lt_irrefl _)
  | indexed w c hstored => exact .file hheld
  | takeWriter w c hindex => exact .take hindex hheld
  | lostWriter w c hlost =>
    refine .leave ?_
    intro key id hkey hsafe
    obtain ⟨rfl, rfl⟩ : w = key ∧ c = id := by simpa [hheld] using hkey
    exact hlost hsafe.1.1
  | mismatchedWriter w c hphase =>
    exact absurd (inv.writer_of_held (t := t) (by simp [hh])) hphase
  | finished w c =>
    rw [writerDesk_phase]
    exact .settle hheld
  | finishClosed w c =>
    refine .leave ?_
    intro key id hkey hsafe
    obtain ⟨rfl, rfl⟩ : w = key ∧ c = id := by simpa [hheld] using hkey
    exact hsafe.1.2 t (by simp)
  | finishFailed w c hcut => exact .leave (fun key id _ hsafe => hsafe.2 hcut)
  | forgotWriters ws next =>
    refine .remove ws hheld ?_
    intro w c hw hindex hsafe
    obtain ⟨hlt, hunwritten⟩ := inv.removals.writers t w (by simpa [hh] using hw)
    exact hunwritten c hsafe.1.1 (inv.writers.filed w c hindex)
  | _ => exact .same hheld

/-! ## Steps -/

/-- A step keeps the registry, when no other call reads from the connection it reads from. -/
theorem Registry.step (inv : Registry v holds) (hact : Act cut late v (holds t) v' h')
    (hapart : Apart holds t h') : Registry v' (Function.update holds t h') where
  requests := inv.requests.move (inv.requestMove hact)
  writers := inv.writers.move (inv.writerMove hact)
  numbered := inv.numbered.step hact hapart (fun _ _ => inv.pending_of_request)
    (fun _ _ => inv.writer_of_held)
  removals := inv.removals.step inv.numbered inv.writers hact (fun _ _ => inv.pending_of_request)

/-- No pending request and no open writer of a connection the host still serves is lost. -/
structure Served (v : View) (holds : Nat → Hold) : Prop where
  requests : (requestDesk v holds).Kept (Safe v holds)
  writers : (writerDesk v holds).Kept (Safe v holds)

theorem Safe.of_step (inv : Registry v holds) (hact : Act cut late v (holds t) v' h') {c : Nat}
    (hsafe : Safe v' (Function.update holds t h') c) : Safe v holds c ∨ v.phase c = .idle := by
  obtain ⟨hstored, hkept⟩ := hsafe
  have hunborn := inv.numbered.unborn v.nextConnection le_rfl
  have hothers : ∀ u, u ≠ t → (holds u).dropping ≠ some c := by
    intro u hu
    simpa [Function.update_of_ne hu] using hkept u
  have hself : h'.dropping ≠ some c := by simpa using hkept t
  have hdropping : c ∈ v'.stored → (holds t).dropping ≠ some c := by
    intro hstored
    generalize hh : holds t = h at hact
    cases hact <;> grind
  have hdropped : ∀ u, (holds u).dropping ≠ some c := by
    intro u
    by_cases hu : u = t
    · exact hu ▸ hdropping hstored
    · exact hothers u hu
  have hborn : c ∈ v.stored ∨ c = v.nextConnection := by
    generalize holds t = h at hact
    cases hact <;> grind
  rcases hborn with hold | rfl
  · exact Or.inl ⟨hold, hdropped⟩
  · exact Or.inr hunborn

theorem Served.step (served : Served v holds) (inv : Registry v holds)
    (hact : Act cut late v (holds t) v' h') (hcut : ¬ cut) :
    Served v' (Function.update holds t h') where
  requests := by
    have hkept := served.requests.move inv.requests (inv.requestMove hact) (by
      intro c hc
      refine (Safe.of_step inv hact hc.1).imp_right ?_
      intro hidle
      simp [requestDesk, hidle])
    exact fun c r hc => hkept c r ⟨hc, hcut⟩
  writers := by
    have hkept := served.writers.move inv.writers (inv.writerMove hact) (by
      intro c hc
      refine (Safe.of_step inv hact hc.1).imp_right ?_
      intro hidle
      simp [writerDesk, hidle])
    exact fun c w hc => hkept c w ⟨hc, hcut⟩

/-- An index entry refers to a stored connection, or a call is about to remove it. -/
structure Covered (v : View) (holds : Nat → Hold) : Prop where
  requests : ∀ r c, v.requests r = some c →
    c ∈ v.stored ∨ ∃ t, c ∈ (holds t).swept ∨ r ∈ (holds t).requestIds
  writers : ∀ w c, v.writers w = some c →
    c ∈ v.stored ∨ ∃ t, c ∈ (holds t).swept ∨ w ∈ (holds t).writers

theorem exists_update {P : Hold → Prop} (h : ∃ u, P (holds u)) (hself : P (holds t) → P h') :
    ∃ u, P (Function.update holds t h' u) := by
  obtain ⟨u, hu⟩ := h
  by_cases heq : u = t
  · exact ⟨t, by simpa using hself (heq ▸ hu)⟩
  · exact ⟨u, by simpa [Function.update_of_ne heq] using hu⟩

/-- A step that adds entries of stored connections only, and that goes on with what it has
    to remove until it is removed. -/
theorem Covered.quiet (covered : Covered v holds)
    (hrequests : ∀ r c, v'.requests r = some c → v.requests r = some c ∨ c ∈ v'.stored)
    (hwriters : ∀ w c, v'.writers w = some c → v.writers w = some c ∨ c ∈ v'.stored)
    (hstored : ∀ c ∈ v.stored, c ∈ v'.stored ∨ c ∈ h'.swept ∨
      (∀ r, v.requests r ≠ some c) ∧ ∀ w, v.writers w ≠ some c)
    (hswept : ∀ c ∈ (holds t).swept, c ∈ h'.swept ∨
      (∀ r, v.requests r = some c → r ∈ h'.requestIds) ∧ ∀ w, v.writers w = some c → w ∈ h'.writers)
    (hids : ∀ r ∈ (holds t).requestIds, r ∈ h'.requestIds ∨ v'.requests r = none)
    (hwriterIds : ∀ w ∈ (holds t).writers, w ∈ h'.writers ∨ v'.writers w = none) :
    Covered v' (Function.update holds t h') where
  requests r c h := by
    rcases hrequests r c h with hold | hnew
    · rcases covered.requests r c hold with hc | hremoving
      · rcases hstored c hc with hc | hc | hc
        · exact Or.inl hc
        · exact Or.inr ⟨t, by simp [hc]⟩
        · exact absurd hold (hc.1 r)
      · refine Or.inr (exists_update (P := fun h => c ∈ h.swept ∨ r ∈ h.requestIds) hremoving ?_)
        rintro (hc | hr)
        · exact (hswept c hc).imp_right (fun hnamed => hnamed.1 r hold)
        · refine Or.inr ((hids r hr).resolve_right ?_)
          simp [h]
    · exact Or.inl hnew
  writers w c h := by
    rcases hwriters w c h with hold | hnew
    · rcases covered.writers w c hold with hc | hremoving
      · rcases hstored c hc with hc | hc | hc
        · exact Or.inl hc
        · exact Or.inr ⟨t, by simp [hc]⟩
        · exact absurd hold (hc.2 w)
      · refine Or.inr (exists_update (P := fun h => c ∈ h.swept ∨ w ∈ h.writers) hremoving ?_)
        rintro (hc | hw)
        · exact (hswept c hc).imp_right (fun hnamed => hnamed.2 w hold)
        · refine Or.inr ((hwriterIds w hw).resolve_right ?_)
          simp [h]
    · exact Or.inl hnew

theorem Covered.step (covered : Covered v holds) (inv : Registry v holds)
    (hact : Act cut late v (holds t) v' h') (hlate : ¬ late) :
    Covered v' (Function.update holds t h') := by
  have hrequest : ∀ r c, v.requests r = some c → v.phase c = .pending r := by
    intro r c h
    exact Phase.pendingId_eq_some_iff.mp (inv.requests.filed r c h)
  have hwriter : ∀ w c, v.writers w = some c → (v.phase c).writer? = some w :=
    inv.writers.filed
  generalize hh : holds t = h at hact
  cases hact with
  | takeOut r c =>
    -- the request the call holds is the only one of its connection
    have hpending := inv.pending_of_request (t := t) (r := r) (c := c) (by simp [hh])
    have hout := inv.requests.out t r c (by simp [requestDesk, hh])
    apply covered.quiet
    · grind
    · grind
    · intro c' hc'
      by_cases heq : c' = c
      · subst heq
        refine Or.inr (Or.inr ⟨?_, ?_⟩)
        · intro r' hr'
          have hsame : r = r' := by simpa [hpending] using hrequest r' c' hr'
          rw [← hsame] at hr'
          simp [show v.requests r = none from hout] at hr'
        · intro w hw
          simpa [hpending] using hwriter w c' hw
      · exact Or.inl (by simp [hc', heq])
    · grind
    · grind
    · grind
  | misfiled r c hphase =>
    exact absurd (inv.pending_of_request (t := t) (by simp [hh])) hphase
  | visit c cs rs ws next =>
    apply covered.quiet
    · grind
    · grind
    · grind
    · intro c' hc'
      by_cases heq : c' = c
      · subst heq
        refine Or.inr ⟨?_, ?_⟩
        · intro r hr
          simp [hrequest r c' hr]
        · intro w hw
          simp [hwriter w c' hw]
      · refine Or.inl ?_
        simpa [hh, heq] using hc'
    · grind
    · grind
  | _ => apply covered.quiet <;> grind

/-! ## A new provider -/

theorem registry_new : Registry Shared.new.view (fun _ => {}) where
  requests := Desk.agrees_empty _ (fun _ => rfl) (fun _ => rfl) (fun _ => rfl)
  writers := Desk.agrees_empty _ (fun _ => rfl) (fun _ => rfl) (fun _ => rfl)
  numbered := by
    constructor <;> simp [Shared.new, Shared.view]
  removals := by
    constructor <;> simp [Shared.new, Shared.view]

theorem served_new : Served Shared.new.view (fun _ => {}) where
  requests c r hsafe := by simp [Safe, Shared.new, Shared.view] at hsafe
  writers c w hsafe := by simp [Safe, Shared.new, Shared.view] at hsafe

theorem covered_new : Covered Shared.new.view (fun _ => {}) where
  requests r c h := by simp [Shared.new, Shared.view] at h
  writers w c h := by simp [Shared.new, Shared.view] at h

end FaberHosts.Http
