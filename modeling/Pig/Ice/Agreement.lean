import Pig.Ice.Session

namespace Pig.Ice

open Go
open Stun

theorem short_requestAuth {auth : IceAuth} (hlocal : auth.localUfrag.length = 12)
    (hremote : auth.remoteUfrag.length = 12) (hpassword : auth.remotePassword.length = 12) :
    auth.requestAuth.Short := by
  have hne : ∀ {text : Bytes}, text.length = 12 → text ≠ [] := by
    rintro text hlength rfl
    cases hlength
  have husername : auth.outgoingUsername = auth.remoteUfrag ++ [0x3a] ++ auth.localUfrag :=
    if_neg (by simp [hne hlocal, hne hremote])
  refine ⟨?_, ?_, hne hpassword, rfl, rfl⟩
  · rw [IceAuth.requestAuth, husername]
    simp
  · rw [IceAuth.requestAuth, husername]
    simp [hlocal, hremote]

theorem Setup.short_auth (setup : Setup) (role : Role) :
    (setup.auth role).requestAuth.Short := by
  cases role with
  | client =>
    exact @short_requestAuth (setup.auth .client) setup.offer.length_username
      setup.answer.length_username setup.answer.length_password
  | server =>
    exact @short_requestAuth (setup.auth .server) setup.answer.length_username
      setup.offer.length_username setup.offer.length_password

def MainPhase.path : MainPhase → Option Nat
  | .gathering => none
  | .failed => none
  | .joined path => some path
  | .marked path => some path
  | .built path _ => some path
  | .sent path => some path

def MainPhase.follows (path : Nat) : MainPhase → Prop
  | .failed => True
  | .marked other | .built other _ | .sent other => other = path
  | .gathering | .joined _ => False

/-- The phases that tell nothing of what was written or selected. -/
def PathPhase.plain : PathPhase → Bool
  | .connected | .waiting _ | .retrying | .bound | .finished => true
  | _ => false

namespace Session

def Nominated (s : Session) (path : Nat) : Prop := ∃ data msg, Slice.contents data ∈ s.wire
  ⟨.client, path⟩ ∧ decodeMessage data = .ok msg ∧ msg.nominates = true

structure Driven (setup : Setup) (s : Session) (e : Endpoint) : Prop where
  path_lt : e.path < setup.paths
  undone : isDone (s.agents e).phase = false

structure Sound (algorithms : Algorithms) (setup : Setup) (s : Session)
    (e : Endpoint) (a : Agent) : Prop where
  selected : a.phase = .selected ↔ s.pointer e.role = some e.path
  unused : setup.paths ≤ e.path → a.phase = .ready
  done : e.role = .client → s.main ≠ .gathering → e.path < setup.paths → isDone a.phase = true
  built : e.role = .client → ∀ msg retry, a.phase = .built msg retry →
    ∀ sent bytes, msg.writeTo algorithms.crc32 = .ok (sent, bytes) → Harmless bytes
  handling : e.role = .server → ∀ msg, a.receive = .handling msg →
    msg.nominates = true → s.Nominated e.path
  flagging : e.role = .server → a.receive = .flagging → s.Nominated e.path
  nominated : e.role = .server → a.nominated = true → s.Nominated e.path
  waited : e.role = .server → a.phase = .nominated ∨ a.phase = .selected → a.nominated = true

/-- What is known of the whole session. The client asks with USE-CANDIDATE only
once it is done with all paths, on the one that it selected. -/
structure Agreed (algorithms : Algorithms) (setup : Setup) (s : Session) :
    Prop where
  sound : ∀ e, Sound algorithms setup s e (s.agents e)
  options : ∀ role index, ∃ ice, (s.configs role index).requestOptions =
    ⟨some (setup.auth role).requestAuth, some ice, true⟩ ∧ (role = .client →
    (s.main = .gathering ∨ ∃ path, s.main = .joined path) → ice.useCandidate = false)
  wire : ∀ path bytes, bytes ∈ s.wire ⟨.client, path⟩ → Harmless bytes ∨ s.main = .sent path
  main : ∀ path, s.main.path = some path → s.pointer .client = some path

section

variable {algorithms : Algorithms} {setup : Setup} {s t : Session}
  {e : Endpoint} {a b : Agent} {bytes : Bytes}

theorem Sound.receive (sound : Sound algorithms setup s e a) (hphase : b.phase = a.phase)
    (hhandling : ∀ msg, b.receive = .handling msg → e.role = .server → msg.nominates = true →
    s.Nominated e.path) (hflagging : b.receive = .flagging → e.role = .server → s.Nominated e.path)
    (hkept : a.nominated = true → b.nominated = true) (hnominated : b.nominated = true → e.role =
    .server → s.Nominated e.path) :
    Sound algorithms setup s e b where
  selected := hphase ▸ sound.selected
  unused := hphase ▸ sound.unused
  done := hphase ▸ sound.done
  built := hphase ▸ sound.built
  handling hrole msg hreceive := hhandling msg hreceive hrole
  flagging hrole hreceive := hflagging hreceive hrole
  nominated hrole hflag := hnominated hflag hrole
  waited hrole hwaited := hkept (sound.waited hrole (hphase ▸ hwaited))

theorem Sound.quiet (sound : Sound algorithms setup s e a) (hphase : b.phase = a.phase)
  (hflag : b.nominated = a.nominated) (hhandling : ∀ msg, b.receive ≠ .handling msg)
  (hflagging : b.receive ≠ .flagging) : Sound algorithms setup s e b := sound.receive hphase
  (fun msg h => absurd h (hhandling msg)) (fun h => absurd h hflagging) (fun h => hflag.trans h)
    fun h hrole => sound.nominated hrole (hflag ▸ h)

theorem Sound.mono (sound : Sound algorithms setup s e a) (hpointer : t.pointer e.role = s.pointer
    e.role) (hmain : t.main ≠ .gathering → s.main ≠ .gathering) (hwire : ∀ path, s.Nominated path →
    t.Nominated path) :
    Sound algorithms setup t e a where
  selected := by rw [hpointer, sound.selected]
  unused := sound.unused
  done hrole hgathering := sound.done hrole (hmain hgathering)
  built := sound.built
  handling hrole msg hmsg hset := hwire _ (sound.handling hrole msg hmsg hset)
  flagging hrole hflagging := hwire _ (sound.flagging hrole hflagging)
  nominated hrole hset := hwire _ (sound.nominated hrole hset)
  waited := sound.waited

theorem agents_setAgent_self : (s.setAgent e a).agents e = a := Function.update_self ..

theorem agents_setAgent_of_ne {other : Endpoint} (h : other ≠ e) :
    (s.setAgent e a).agents other = s.agents other :=
  Function.update_of_ne h _ _

variable {path : Nat}

theorem wire_send {written : Bytes} : written ∈ (s.send e bytes).wire ⟨.client, path⟩ ↔
      written ∈ s.wire ⟨.client, path⟩ ∨ e = ⟨.client, path⟩ ∧ written = bytes := by
  by_cases hsame : e = ⟨.client, path⟩
  · subst hsame
    simp [send]
  · simp [send, Function.update_of_ne (Ne.symm hsame), hsame]

theorem nominated_send (h : s.Nominated path) : (s.send e bytes).Nominated path := by
  obtain ⟨data, msg, hdata, hmsg⟩ := h
  exact ⟨data, msg, wire_send.mpr (.inl hdata), hmsg⟩

theorem candidate_of_handleRequest {agent : BindingAgent} {msg : Message} {written : Bool}
    (h : agent.handleRequest algorithms msg written = .ok true) :
    (msg.findAttribute .iceUseCandidate).isSome = true := by
  unfold BindingAgent.handleRequest at h
  split at h
  · cases h
  · simp only [bind_eq_ok] at h
    obtain ⟨-, -, -, -, h⟩ := h
    split at h
    · cases h
    · exact (Bool.and_eq_true_iff.mp (Except.ok.inj h)).2

section

variable (agreed : Agreed algorithms setup s)

include agreed

theorem Agreed.setAgent (sound : Sound algorithms setup s e a) :
    Agreed algorithms setup (s.setAgent e a) where
  sound other := by
    have hmono : ∀ {agent}, Sound algorithms setup s other agent →
        Sound algorithms setup (s.setAgent e a) other agent :=
      fun sound => sound.mono rfl id fun _ => id
    by_cases hsame : other = e
    · subst hsame
      rw [agents_setAgent_self]
      exact hmono sound
    · rw [agents_setAgent_of_ne hsame]
      exact hmono (agreed.sound other)
  options := agreed.options
  wire := agreed.wire
  main := agreed.main

theorem Agreed.send (hharmless : e.role = .client → Harmless bytes) :
    Agreed algorithms setup (s.send e bytes) where
  sound other := (agreed.sound other).mono rfl id fun _ => nominated_send
  options := agreed.options
  wire path written hwritten := by
    rcases wire_send.mp hwritten with hbefore | ⟨rfl, rfl⟩
    · exact agreed.wire path written hbefore
    · exact .inl (hharmless rfl)
  main := agreed.main

theorem Agreed.send_setAgent (hharmless : e.role = .client → Harmless bytes)
    (sound : Sound algorithms setup s e a) :
    Agreed algorithms setup ((s.send e bytes).setAgent e a) :=
  (agreed.send hharmless).setAgent (sound.mono rfl id fun _ => nominated_send)

theorem Agreed.driven {phase : PathPhase} (hphase : (s.agents e).phase = phase)
    (hready : phase ≠ .ready) (hundone : isDone phase = false) : Driven setup s e where
  path_lt := Nat.lt_of_not_le fun hle => hready (hphase.symm.trans ((agreed.sound e).unused hle))
  undone := hphase ▸ hundone

theorem Agreed.gathering (driven : Driven setup s e) (hrole : e.role = .client) :
    s.main = .gathering := by
  by_contra hmain
  have hdone := (agreed.sound e).done hrole hmain driven.path_lt
  cases driven.undone.symm.trans hdone

theorem Agreed.move (driven : Driven setup s e) (hreceive : b.receive = (s.agents e).receive)
    (hflag : b.nominated = (s.agents e).nominated) (hselected : b.phase ≠ .selected)
    (hbuilt : e.role = .client → ∀ msg retry, b.phase = .built msg retry → ∀ sent bytes, msg.writeTo
    algorithms.crc32 = .ok (sent, bytes) → Harmless bytes) (hwaited : b.phase = .nominated →
    (s.agents e).nominated = true) :
    Sound algorithms setup s e b where
  selected := by
    refine iff_of_false hselected fun hpointer => ?_
    have hundone := driven.undone
    rw [(agreed.sound e).selected.mpr hpointer] at hundone
    cases hundone
  unused hle := absurd driven.path_lt (Nat.not_lt.mpr hle)
  done hrole hmain _ := absurd (agreed.gathering driven hrole) hmain
  built := hbuilt
  handling hrole msg hmsg := (agreed.sound e).handling hrole msg (hreceive ▸ hmsg)
  flagging hrole hflagging := (agreed.sound e).flagging hrole (hreceive ▸ hflagging)
  nominated hrole hset := (agreed.sound e).nominated hrole (hflag ▸ hset)
  waited hrole hphase := by
    rw [hflag]
    exact hwaited (hphase.resolve_right hselected)

theorem Agreed.move_plain (driven : Driven setup s e) (hreceive : b.receive = (s.agents e).receive)
    (hflag : b.nominated = (s.agents e).nominated) (hplain : b.phase.plain = true) :
    Sound algorithms setup s e b := by
  refine agreed.move driven hreceive hflag ?_ ?_ ?_
  · intro hphase
    simp [hphase, PathPhase.plain] at hplain
  · intro _ msg retry hphase
    simp [hphase, PathPhase.plain] at hplain
  · intro hphase
    simp [hphase, PathPhase.plain] at hplain

theorem Agreed.finish (driven : Driven setup s e) (close : Bool) :
    Agreed algorithms setup (s.setAgent e ((s.agents e).finish close)) :=
  agreed.setAgent (agreed.move_plain driven rfl rfl rfl)

variable {ok : Bool}

theorem Agreed.connect (h : s.connect setup e ok = some t) :
    Agreed algorithms setup t := by
  simp only [Session.connect] at h
  split at h
  · next hready =>
      have driven : Driven setup s e := ⟨hready.2, by rw [hready.1]; rfl⟩
      split at h <;> cases h <;> exact agreed.setAgent (agreed.move_plain driven rfl rfl rfl)
  · cases h

variable {txID : FixedBytes 12}

theorem Agreed.request {retry : Bool} {msg : Message}
    (driven : Driven setup s e) (hbuild : buildBindingRequest algorithms
      (some (s.config setup e).requestOptions) txID = .ok msg) :
    Agreed algorithms setup (s.setAgent e { s.agents e with
      phase := .built msg retry
      request := some ⟨txID, none⟩ }) := by
  refine agreed.setAgent (agreed.move driven rfl rfl (by simp) ?_ (by simp))
  intro hrole other again hbuilt sent bytes hwrite
  cases hbuilt
  obtain ⟨ice, hoptions, hcandidate⟩ := agreed.options e.role (setup.configOf e)
  rw [config, hoptions] at hbuild
  exact harmless_of_request (setup.short_auth e.role)
    (hcandidate hrole (.inl (agreed.gathering driven hrole))) hbuild hwrite

theorem Agreed.build (h : s.build algorithms setup e txID = some t) :
    Agreed algorithms setup t := by
  simp only [Session.build] at h
  split at h
  · next hphase =>
      have driven := agreed.driven hphase nofun rfl
      cases h
      split
      · next msg hbuild => exact agreed.request driven hbuild
      · exact agreed.finish driven _
  · next hphase =>
      have driven := agreed.driven hphase nofun rfl
      cases h
      split
      · split
        · next msg hbuild => exact agreed.request driven hbuild
        · exact agreed.finish driven _
      · exact agreed.finish driven _
  · cases h

theorem Agreed.write (h : s.write algorithms e ok = some t) :
    Agreed algorithms setup t := by
  simp only [Session.write] at h
  split at h
  · next msg retry hphase =>
      have driven := agreed.driven hphase nofun rfl
      split at h
      · next sent bytes hwrite =>
          split at h <;> cases h
          · exact agreed.send_setAgent (fun hrole => (agreed.sound e).built hrole msg retry hphase
              sent bytes hwrite) (agreed.move_plain driven rfl rfl rfl)
          · exact agreed.finish driven _
      · cases h
        exact agreed.finish driven _
  · cases h

theorem Agreed.bindReturns (driven : Driven setup s e) (ok : Bool) :
    Agreed algorithms setup (s.bindReturns e ok) := by
  unfold Session.bindReturns
  split
  · exact agreed.setAgent (agreed.move_plain driven rfl rfl rfl)
  · exact agreed.finish driven _

theorem Agreed.alive (h : s.alive e = some t) : Agreed algorithms setup t := by
  simp only [Session.alive] at h
  split at h
  · next hwaiting =>
      have driven := agreed.driven hwaiting.1 nofun rfl
      split at h <;> cases h
      · exact agreed.bindReturns driven _
      · exact agreed.setAgent (agreed.move_plain driven rfl rfl rfl)
  · cases h

theorem Agreed.complete (h : s.complete e = some t) : Agreed algorithms setup t := by
  simp only [Session.complete] at h
  split at h
  · next retry hphase =>
      have driven := agreed.driven hphase nofun rfl
      split at h
      · cases h
        exact agreed.bindReturns driven _
      · split at h <;> cases h
        exact agreed.finish driven _
  · cases h

theorem Agreed.waitNominated (h : s.waitNominated setup e ok = some t) :
    Agreed algorithms setup t := by
  simp only [Session.waitNominated] at h
  split at h
  · next hbound =>
      have driven := agreed.driven hbound.2 nofun rfl
      split at h
      · split at h
        · split at h <;> cases h
          next hnominated =>
            exact agreed.setAgent (agreed.move driven rfl rfl (by simp) (by simp)
              fun _ => hnominated)
        · split at h <;> cases h
          exact agreed.finish driven true
      · cases h
        exact agreed.finish driven true
  · cases h

theorem Agreed.swap (hpointer : s.pointer e.role = none) (driven : Driven setup s e)
    (hwaited : e.role = .server → (s.agents e).nominated = true) :
    Agreed algorithms setup { s.setAgent e { s.agents e with
      phase := .selected } with
      pointer := Function.update s.pointer e.role (some e.path) } where
  sound other := by
    by_cases hsame : other = e
    · subst hsame
      rw [agents_setAgent_self]
      have sound := agreed.sound other
      exact {
        selected := iff_of_true rfl (Function.update_self ..)
        unused := fun hle => absurd driven.path_lt (Nat.not_lt.mpr hle)
        done := fun _ _ _ => rfl
        built := by simp
        handling := sound.handling
        flagging := sound.flagging
        nominated := sound.nominated
        waited := fun hrole _ => hwaited hrole }
    · rw [agents_setAgent_of_ne hsame]
      have sound := agreed.sound other
      refine { sound with selected := ?_ }
      by_cases hrole : other.role = e.role
      · -- Nobody of this side had selected a path.
        have hbefore := sound.selected
        rw [hrole, hpointer] at hbefore
        change _ ↔ Function.update s.pointer e.role _ other.role = _
        rw [hrole, Function.update_self]
        refine iff_of_false (fun h => by cases hbefore.mp h) fun h => ?_
        refine hsame ?_
        cases e
        cases hrole
        cases h
        rfl
      · change _ ↔ Function.update s.pointer e.role _ other.role = _
        rw [Function.update_of_ne hrole]
        exact sound.selected
  options := agreed.options
  wire := agreed.wire
  main path hmain := by
    have hbefore := agreed.main path hmain
    by_cases hrole : Role.client = e.role
    · rw [hrole, hpointer] at hbefore
      cases hbefore
    · exact (Function.update_of_ne hrole _ _).trans hbefore

theorem Agreed.select (h : s.select e = some t) : Agreed algorithms setup t := by
  simp only [Session.select] at h
  split at h
  · next hphase =>
      have driven : Driven setup s e :=
        agreed.driven hphase (by cases e.role <;> nofun) (by cases e.role <;> rfl)
      split at h <;> cases h
      · next hpointer =>
          refine agreed.swap hpointer driven fun hrole => ?_
          rw [hrole] at hphase
          exact (agreed.sound e).waited hrole (.inl hphase)
      · exact agreed.finish driven true
  · cases h

theorem Agreed.stopReceive (h : s.stopReceive e = some t) : Agreed algorithms setup t := by
  simp only [Session.stopReceive] at h
  split at h <;> cases h
  next hselected =>
    exact agreed.setAgent ((agreed.sound e).quiet rfl rfl
      (by simp [hselected.2.1]) (by simp [hselected.2.1]))

theorem Agreed.deliver {data : Slice}
    (h : s.deliver e data = some t) : Agreed algorithms setup t := by
  simp only [Session.deliver] at h
  split at h
  · next hreading =>
      split at h <;> cases h
      · next msg hdecode =>
          have sound := agreed.sound e
          refine agreed.setAgent (sound.receive rfl ?_ (by simp) id
            fun hset hrole => sound.nominated hrole hset)
          intro other hother hrole hnominates
          cases hother
          -- The peer of a server is the client on the same path.
          obtain ⟨role, path⟩ := e
          cases hrole
          exact ⟨data, msg, hreading.2.2.2, hdecode, hnominates⟩
      · exact agreed
  · cases h

theorem Agreed.harmless_response {msg : Message}
    (h : responseBytes algorithms (s.bindingAgent setup e) msg = some bytes) :
    Harmless bytes := by
  obtain ⟨ice, hoptions, -⟩ := agreed.options e.role (setup.configOf e)
  simp only [responseBytes, bindingAgent, config, hoptions, Option.bind_eq_bind, Option.bind_some,
    Option.bind_eq_some_iff, toOption_eq_some_iff] at h
  obtain ⟨response, hresponse, ⟨sent, written⟩, hwrite, hbytes⟩ := h
  cases hbytes
  rw [processBindingRequest, bind_eq_ok] at hresponse
  obtain ⟨-, -, hresponse⟩ := hresponse
  rw [bind_eq_ok] at hresponse
  obtain ⟨-, -, hresponse⟩ := hresponse
  exact harmless_of_response (setup.short_auth e.role) hresponse hwrite

theorem Agreed.handle {written : Bool} (h : s.handle algorithms setup e written = some t) :
    Agreed algorithms setup t := by
  have sound := agreed.sound e
  have hnoticing : Agreed algorithms setup (s.setAgent e { s.agents e with receive := .noticing })
    := agreed.setAgent (sound.quiet rfl rfl (by simp) (by simp))
  simp only [Session.handle] at h
  split at h
  · next msg hhandling =>
      split at h
      · next hrequest =>
          split at h <;> cases h
          · next nominates bytes hhandle hbytes =>
              refine agreed.send_setAgent (fun _ => agreed.harmless_response hbytes)
                (sound.receive rfl ?_ ?_ id fun hset hrole =>
                  sound.nominated hrole hset)
              · intro other hother
                split at hother <;> cases hother
              · intro hflagging hrole
                split at hflagging
                · next hset =>
                    rw [hset] at hhandle
                    refine sound.handling hrole msg hhandling ?_
                    rw [Message.nominates, hrequest, candidate_of_handleRequest hhandle]
                    rfl
                · cases hflagging
          · exact hnoticing
      · split at h <;> cases h
        · exact agreed.setAgent (sound.quiet rfl rfl (by simp) (by simp))
        · exact hnoticing
  · cases h

theorem Agreed.resolve (h : s.resolve algorithms setup e = some t) :
    Agreed algorithms setup t := by
  simp only [Session.resolve] at h
  split at h <;> cases h
  exact agreed.setAgent ((agreed.sound e).quiet rfl rfl (by simp) (by simp))

theorem Agreed.flag (h : s.flag e = some t) : Agreed algorithms setup t := by
  simp only [Session.flag] at h
  split at h <;> cases h
  next hflagging =>
    exact agreed.setAgent ((agreed.sound e).receive rfl (by simp) (by simp)
      (fun _ => rfl) fun _ hrole =>
        (agreed.sound e).flagging hrole hflagging)

theorem Agreed.notice (h : s.notice e = some t) : Agreed algorithms setup t := by
  simp only [Session.notice] at h
  split at h <;> cases h
  exact agreed.setAgent ((agreed.sound e).quiet rfl rfl (by simp) (by simp))

theorem Agreed.advance {main : MainPhase} (hdone : ∀ path < setup.paths, isDone
    (s.agents ⟨.client, path⟩).phase = true) (hsent : ∀ path, s.main ≠ .sent path)
    (hjoined : ∀ path, main = .joined path → s.main = .gathering) (hgathering : main ≠ .gathering)
    (hpath : ∀ path, main.path = some path → s.pointer .client = some path) :
    Agreed algorithms setup { s with main := main } where
  sound e := by
    have sound := agreed.sound e
    refine { sound with done := fun hrole _ hlt => ?_ }
    obtain ⟨role, path⟩ := e
    cases hrole
    exact hdone path hlt
  options role index := by
    obtain ⟨ice, hoptions, hcandidate⟩ := agreed.options role index
    refine ⟨ice, hoptions, fun hrole hmain => hcandidate hrole ?_⟩
    rcases hmain with hmain | ⟨path, hmain⟩
    · exact absurd hmain hgathering
    · exact .inl (hjoined path hmain)
  wire path bytes hbytes := .inl ((agreed.wire path bytes hbytes).resolve_right (hsent path))
  main := hpath

theorem Agreed.proceed {path : Nat} {main : MainPhase} (hpath : s.main.path = some path)
    (hsent : s.main ≠ .sent path) (hnext : main.follows path) :
    Agreed algorithms setup { s with main := main } := by
  have hgathering : s.main ≠ .gathering := by
    intro hmain
    rw [hmain] at hpath
    cases hpath
  refine agreed.advance (fun other => (agreed.sound ⟨.client, other⟩).done rfl hgathering)
    ?_ ?_ ?_ ?_
  · intro other hmain
    rw [hmain] at hpath hsent
    exact hsent (congrArg MainPhase.sent (Option.some.inj hpath))
  · rintro other rfl
    cases hnext
  · rintro rfl
    cases hnext
  · intro other hother
    rw [agreed.main path hpath]
    cases main <;> simp_all [MainPhase.path, MainPhase.follows]

theorem Agreed.join (h : s.join setup = some t) : Agreed algorithms setup t := by
  simp only [Session.join] at h
  split at h
  · next hjoin =>
      split at h <;> cases h
      · exact agreed.advance hjoin.2 (by simp [hjoin.1]) (by simp) (by simp)
          (by simp [MainPhase.path])
      · next path hpointer =>
          exact agreed.advance hjoin.2 (by simp [hjoin.1]) (fun _ _ => hjoin.1) (by simp)
            (by simp [MainPhase.path, hpointer])
  · cases h

theorem Agreed.mark (h : s.mark setup = some t) : Agreed algorithms setup t := by
  simp only [Session.mark] at h
  split at h
  · next path hmain =>
      have proceed {main : MainPhase} : main.follows path → Agreed algorithms setup
        { s with main := main } := agreed.proceed (by rw [hmain]; rfl) (by simp [hmain])
      split at h
      · cases h
        exact proceed trivial
      · next ice hice =>
          split at h <;> cases h
          · exact proceed trivial
          · have marked : Agreed algorithms setup { s with main := .marked path } := proceed rfl
            refine { marked with sound := ?_, options := ?_ }
            · intro e
              exact (marked.sound e).mono rfl id fun _ => id
            · intro role index
              obtain ⟨known, hoptions, -⟩ := agreed.options role index
              cases role with
              | server => exact ⟨known, hoptions, by simp⟩
              | client =>
                by_cases hsame : index = setup.configOf ⟨.client, path⟩
                · subst hsame
                  simp [hoptions]
                · simp [hsame, hoptions]
  · cases h

theorem Agreed.nominate (h : s.nominate algorithms setup txID = some t) :
    Agreed algorithms setup t := by
  simp only [Session.nominate] at h
  split at h
  · next path hmain =>
      have hpath : s.main.path = some path := by
        rw [hmain]
        rfl
      have hsent : s.main ≠ .sent path := by simp [hmain]
      split at h
      · split at h <;> cases h
        · next msg hbuild =>
            have asked := agreed.setAgent ((agreed.sound ⟨.client, path⟩).receive
              (b := { s.agents ⟨.client, path⟩ with request := some ⟨txID, none⟩ }) rfl
              (fun _ _ hrole => by cases hrole) (fun _ hrole => by cases hrole) id
              fun _ hrole => by cases hrole)
            exact @Agreed.proceed _ _ _ asked path (.built path msg) hpath hsent rfl
        · exact agreed.proceed hpath hsent trivial
      · cases h
        exact agreed.proceed hpath hsent trivial
  · cases h

theorem Agreed.writeNomination (h : s.writeNomination algorithms ok = some t) :
    Agreed algorithms setup t := by
  simp only [Session.writeNomination] at h
  split at h
  · next path msg hmain =>
      have hpath : s.main.path = some path := by
        rw [hmain]
        rfl
      have hsent : s.main ≠ .sent path := by simp [hmain]
      split at h
      · next sent bytes hwrite =>
          split at h <;> cases h
          · have moved : Agreed algorithms setup { s with main := .sent path } :=
              agreed.proceed hpath hsent rfl
            refine { moved with sound := ?_, wire := ?_ }
            · intro e
              exact (moved.sound e).mono rfl id fun _ => nominated_send
            · intro other written hwritten
              rcases wire_send.mp hwritten with hbefore | ⟨hsame, -⟩
              · exact moved.wire other written hbefore
              · cases hsame
                exact .inr rfl
          · exact agreed.proceed hpath hsent trivial
      · cases h
        exact agreed.proceed hpath hsent trivial
  · cases h

end

theorem agreed_start : Agreed algorithms setup (start setup) where
  sound e := {
    selected := by simp [start, Agent.start]
    unused := fun _ => rfl
    done := by simp [start]
    built := by simp [start, Agent.start]
    handling := by simp [start, Agent.start]
    flagging := by simp [start, Agent.start]
    nominated := by simp [start, Agent.start]
    waited := by simp [start, Agent.start] }
  options role index := by
    cases role with
    | client | server => exact ⟨_, rfl, fun _ _ => rfl⟩
  wire := by simp [start]
  main := by simp [start, MainPhase.path]

theorem Agreed.step {event : SessionEvent} (agreed : Agreed algorithms setup s)
    (h : s.step algorithms setup event = some t) :
    Agreed algorithms setup t := by
  cases event with
  | connect e ok => exact agreed.connect h
  | build e txID => exact agreed.build h
  | write e ok => exact agreed.write h
  | alive e => exact agreed.alive h
  | complete e => exact agreed.complete h
  | waitNominated e ok => exact agreed.waitNominated h
  | select e => exact agreed.select h
  | stopReceive e => exact agreed.stopReceive h
  | deliver e data => exact agreed.deliver h
  | handle e written => exact agreed.handle h
  | resolve e => exact agreed.resolve h
  | flag e => exact agreed.flag h
  | notice e => exact agreed.notice h
  | cancel role =>
    cases h
    exact { agreed with
      sound := fun e => (agreed.sound e).mono rfl id fun _ => id }
  | join => exact agreed.join h
  | mark => exact agreed.mark h
  | nominate txID => exact agreed.nominate h
  | writeNomination ok => exact agreed.writeNomination h

theorem agreed_of_run {events : List SessionEvent} (run : Run (step algorithms setup)
  (fun _ _ => True) (start setup) events s) : Agreed algorithms setup s := run.invariant
  (Agreed algorithms setup) agreed_start
    fun _ _ _ agreed _ hstep => agreed.step hstep

theorem Agreed.selected_of_nominated (agreed : Agreed algorithms setup s) (h : s.Nominated path) :
    (s.agents ⟨.client, path⟩).phase = .selected := by
  obtain ⟨data, msg, hdata, hdecode, hnominates⟩ := h
  rcases agreed.wire path _ hdata with hharmless | hmain
  · cases (hharmless data msg rfl hdecode).symm.trans hnominates
  · exact (agreed.sound ⟨.client, path⟩).selected.mpr (agreed.main path (by rw [hmain]; rfl))

end

/-- Each side selects one path at most, the client nominates none but the one
it selected, and the server selects none but one that the client selected and
nominated. -/
theorem paths_agree (algorithms : Algorithms) (setup : Setup)
    (events : List SessionEvent) (last : Session)
    (run : Run (step algorithms setup) (fun _ _ => True) (start setup) events last) :
    (∀ role path other, (last.agents ⟨role, path⟩).phase = .selected →
      (last.agents ⟨role, other⟩).phase = .selected → path = other) ∧
    (∀ path, last.Nominated path → (last.agents ⟨.client, path⟩).phase = .selected) ∧
    (∀ path, (last.agents ⟨.server, path⟩).phase = .selected → (last.agents ⟨.client, path⟩).phase =
      .selected ∧ last.Nominated path) := by
  have agreed := agreed_of_run run
  refine ⟨fun role path other hpath hother => ?_,
    fun path => agreed.selected_of_nominated, fun path hpath => ?_⟩
  · have hfirst := (agreed.sound ⟨role, path⟩).selected.mp hpath
    have hsecond := (agreed.sound ⟨role, other⟩).selected.mp hother
    exact Option.some.inj (hfirst.symm.trans hsecond)
  · have sound := agreed.sound ⟨.server, path⟩
    have hnominated := sound.nominated rfl (sound.waited rfl (.inr hpath))
    exact ⟨agreed.selected_of_nominated hnominated, hnominated⟩

def sampleDigest (transaction : UInt8) (length : Nat) : Bytes :=
  match transaction, length with
  | 1, 72 => [0x7f, 0xba, 0xb3, 0x15, 0xa6, 0x34, 0x4a, 0x0b, 0x52, 0xeb,
      0xad, 0x34, 0xfe, 0xeb, 0x0e, 0x06, 0x1e, 0xe9, 0x94, 0x5e]
  | 1, _ => [0x27, 0x8e, 0x4b, 0xec, 0x69, 0x45, 0x27, 0xbd, 0xaf, 0xfd,
      0x6e, 0x5b, 0x3f, 0x94, 0x7a, 0x44, 0x6f, 0x2c, 0xba, 0xcc]
  | 2, 72 => [0xc1, 0x6d, 0x13, 0x6f, 0x0a, 0xde, 0x07, 0x80, 0x60, 0x47,
      0x93, 0x2b, 0xe8, 0x59, 0xec, 0xa5, 0x3e, 0xdd, 0x2e, 0xef]
  | 2, _ => [0x79, 0xf0, 0xb8, 0x29, 0x30, 0xf3, 0x20, 0x34, 0x55, 0xdf,
      0xef, 0xfd, 0x72, 0xd5, 0x27, 0xc0, 0xa4, 0x5c, 0x99, 0x3b]
  | _, _ => [0xfc, 0xb2, 0xe0, 0xb3, 0x35, 0xdb, 0x2b, 0x8e, 0xd5, 0xd2,
      0xff, 0xee, 0xef, 0x85, 0x83, 0xb9, 0x1f, 0x38, 0xe6, 0x12]

/-- HMAC-SHA1 and CRC-32 as they are on the messages of this negotiation, told
apart by the transaction and the number of bytes covered. -/
def sessionAlgorithms : Algorithms where
  sha1 := {
    size := 20
    hmac := fun _ message => sampleDigest (message.getD 8 0) message.length
    length_hmac := by
      intro key message
      unfold sampleDigest
      split <;> rfl }
  size_sha1 := rfl
  crc32 := fun message =>
    match message.getD 8 0, message.length with
    | 1, 96 => 0xa069a245
    | 1, _ => 0xaec2c143
    | 2, 96 => 0x26fa57b2
    | 2, _ => 0xe020e3ed
    | _, _ => 0x071001a9
  opaqueString := fun text => text

def twoPaths : Setup where
  offer := ⟨List.replicate 12 0x61, List.replicate 12 0x70, rfl, rfl⟩
  answer := ⟨List.replicate 12 0x62, List.replicate 12 0x71, rfl, rfl⟩
  paths := 2
  configOf _ := 0
  priority _ _ := 7
  remoteAddr
    | ⟨.client, _⟩ => .udp [10, 0, 0, 2] 5000
    | ⟨.server, _⟩ => .udp [10, 0, 0, 1] 5000

def transaction (number : UInt8) : FixedBytes 12 := .copyOf 12 [number]

def readAs (msg : Binding Message) : Slice :=
  match msg with
  | .ok msg =>
    match msg.writeTo sessionAlgorithms.crc32 with
    | .ok (_, bytes) => .ofBytes bytes
    | .error _ => .ofBytes []
  | .error _ => .ofBytes []

def requestOf (options : BindingOptions) (number : UInt8) : Slice :=
  readAs (buildBindingRequest sessionAlgorithms (some options) (transaction number))

def responseOf (e : Endpoint) (number : UInt8) : Slice := readAs (bindingResponse sessionAlgorithms
  (twoPaths.remoteAddr e) (transaction number) (some (twoPaths.config e.role 0).requestOptions))

def nomination : Slice := requestOf ⟨some (twoPaths.auth .client).requestAuth,
    some ⟨7, true, defaultIceTieBreaker, 0⟩, true⟩ 3

/-- The first path is bound by both sides, the second one fails. -/
def negotiation : List SessionEvent :=
  let client : Endpoint := ⟨.client, 0⟩
  let server : Endpoint := ⟨.server, 0⟩
  [.connect client true, .build client (transaction 1), .write client true, .connect server true,
    .build server (transaction 2), .write server true, .deliver server
    (requestOf (twoPaths.config .client 0).requestOptions 1), .handle server true, .notice server,
    .deliver client (requestOf (twoPaths.config .server 0).requestOptions 2), .handle client true,
    .notice client, .deliver client (responseOf server 1), .handle client true, .resolve client,
    .notice client, .deliver server (responseOf client 2), .handle server true, .resolve server,
    .notice server, .complete client, .select client, .cancel .client, .connect ⟨.client, 1⟩ false,
    .join, .mark, .nominate (transaction 3), .writeNomination true, .complete server, .deliver
    server nomination, .handle server true, .flag server, .notice server, .waitNominated server
    true, .select server]

theorem paths_agree_negotiation : ∃ last, Run (step sessionAlgorithms twoPaths) (fun _ _ => True)
    (start twoPaths) negotiation last ∧ (last.agents ⟨.server, 0⟩).phase = .selected ∧
    (last.agents ⟨.client, 0⟩).phase = .selected ∧ last.Nominated 0 :=
  Run.exists_of_exec_imp (fun last => (last.agents ⟨.server, 0⟩).phase = .selected)
    (by decide +kernel) fun last run hserver =>
      ⟨hserver, (paths_agree sessionAlgorithms twoPaths negotiation last run).2.2 0 hserver⟩

end Session

end Pig.Ice
