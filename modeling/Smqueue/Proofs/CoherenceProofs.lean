import Smqueue.Coherence
import Smqueue.QueueFile
import Smqueue.Proofs.EveryMessageProofs
import Smqueue.Proofs.SampleLibsProofs
import Smqueue.Proofs.TagsProofs

/-!
# Proofs: text and tree

The text of a message and its tree agree, where the flags say so, as long as every edit is flagged
and no text is cut off.
-/

namespace Smqueue

open Relation (ReflTransGen)

variable {lib : Libs} {env : Env} {s : Settings} {d d' : Daemon} {q q' : SMq}
  {h x x' : ShortMsgPending}

namespace ShortMsg

variable {m m' : ShortMsg}

/-! ## The two forms of a message -/

theorem Coherent.of_better (h : m.parsedIsBetter = true) : m.Coherent lib := by
  intro _ hb
  rw [h] at hb
  cases hb

/-- The forms and their flags are as they were. -/
theorem Coherent.of_same (h : m.Coherent lib) (htext : m'.text = m.text)
    (hlen : m'.textLength = m.textLength) (hvalid : m'.parsedIsValid = m.parsedIsValid)
    (hbetter : m'.parsedIsBetter = m.parsedIsBetter) (htree : m'.parsed = m.parsed) :
    m'.Coherent lib := by
  unfold Coherent
  rw [htext, hlen, hvalid, hbetter, htree]
  exact h

/-- A text that fits is read back as it is. -/
theorem buffer_self (text : CString) : buffer text text.length = text := by
  unfold buffer strncpy
  rw [List.take_length, Nat.sub_self, List.replicate_zero, List.append_nil]

theorem Coherent.prints (hinv : ∀ p, lib.messageParse (lib.messageToStr p) = some p)
    (hc : m.Coherent lib) (hfit : m.TextFits lib) (h : m.Prints lib m') : m'.Coherent lib := by
  rcases makeTextValid_ok h with rfl | ⟨p, hv, hp, rfl⟩
  · exact hc
  · intro _ _
    have hlen : (lib.messageToStr p).length % 2 ^ 16 = (lib.messageToStr p).length :=
      Nat.mod_eq_of_lt (hfit p hp)
    refine ⟨_, p, rfl, hp, ?_⟩
    rw [hlen, List.take_length, buffer_self]
    exact hinv p

/-- What is parsed is what the text says. -/
theorem parse_coherent {ok : Bool} (hv : m.parsedIsValid = false)
    (h : m.parse lib = .ok (ok, m')) : m'.parsedIsBetter = false ∧ m'.Coherent lib := by
  obtain ⟨⟨sip, valid, ct, rp, tl, rfl⟩, htree⟩ := parse_ok hv h
  refine ⟨rfl, fun hvalid _ => ?_⟩
  obtain ⟨text, p, htext, hp, hsip, -⟩ := htree hvalid
  exact ⟨text, p, htext, hsip, hp⟩

/-! ## Edits of the head -/

/-- The edit was flagged, or there was none. -/
def Flagged (m m' : ShortMsg) : Prop :=
  m'.parsedIsBetter = true ∨ m'.parsed = m.parsed ∧ m'.parsedIsBetter = m.parsedIsBetter

theorem setFromUsername_self {sip : SipMessage} {sender : CString}
    (h : sip.fromUsername = .ok (some sender)) : setFromUsername sip sender = sip := by
  unfold SipMessage.fromUsername at h
  obtain ⟨f, hf, h⟩ := Except.bind_eq_ok.1 h
  obtain ⟨url, hurl, h⟩ := Except.bind_eq_ok.1 h
  have hf' := deref_eq_ok hf
  have hurl' := deref_eq_ok hurl
  have hname := Except.pure_eq_ok.1 h
  unfold setFromUsername
  rw [hf', Option.map_some, hurl', Option.map_some, ← hname]
  obtain ⟨scheme, username, host, port⟩ := url
  obtain ⟨display, furl, params⟩ := f
  dsimp only at hurl'
  rw [← hurl', ← hf']

theorem Coherent.edited (hc : m.Coherent lib) (hf : Flagged m m')
    (he : TreeEdited (SipMessage.Edit lib) m m') : m'.Coherent lib := by
  rcases hf with hb | ⟨htree, hb⟩
  · exact .of_better hb
  · exact hc.of_same he.text he.textLength he.valid hb htree

theorem Flagged.unedited (h : m'.parsed = m.parsed) (hb : m'.parsedIsBetter = m.parsedIsBetter) :
    Flagged m m' := .inr ⟨h, hb⟩

/-- A header is only added if it could be parsed. -/
theorem appendVia_self {sip : SipMessage} (h : ¬ (lib.viaParse (SMq.viaLine s)).isSome = true) :
    SMq.appendVia lib s sip = sip := by
  unfold SMq.appendVia
  rw [Option.not_isSome_iff_eq_none.1 h, Option.toList_none, List.append_nil]

theorem lookupFromAddress_flagged {next : SmState}
    (hg : ∀ sip url user, ¬ m.AddsViaUnflagged lib env s sip url user)
    (h : m.lookupFromAddress lib env s = .ok (next, m')) : Flagged m m' := by
  unfold lookupFromAddress at h
  obtain ⟨sip, hsip, h⟩ := Except.bind_eq_ok.1 h
  obtain ⟨f, hf, h⟩ := Except.bind_eq_ok.1 h
  obtain ⟨url, hurl, h⟩ := Except.bind_eq_ok.1 h
  have htree := deref_eq_ok hsip
  have hfrom : sip.fromHeader.bind NameAddr.url = some url := by
    rw [deref_eq_ok hf]
    exact deref_eq_ok hurl
  split at h
  · cases h
    exact .unedited rfl rfl
  · rename_i hscheme
    dsimp only at h
    split at h
    · cases h
      exact .unedited rfl rfl
    · rename_i user huser
      split at h
      · cases h
        exact .unedited rfl rfl
      · rename_i hhost
        -- the header was added, and the function returns without another edit
        have hvia : (isPhoneNumber user = true ∨ imsiLength (stripImsi user) = false ∨
            phoneOf env.hlr user = none) →
            Flagged m { m with parsed := some (SMq.appendVia lib s sip) } := by
          intro hreturns
          by_cases hb : m.parsedIsBetter = true
          · exact .inl hb
          · refine .unedited ?_ rfl
            change some (SMq.appendVia lib s sip) = m.parsed
            rw [appendVia_self, htree]
            intro hparse
            exact hg sip url user ⟨Bool.eq_false_iff.2 hb, htree, hfrom, not_not.1 hscheme, huser,
              Option.isSome_iff_ne_none.2 fun hn => hhost (hn ▸ rfl), hparse, hreturns⟩
        split at h
        · rename_i hphone
          cases h
          exact hvia (.inl hphone)
        · split at h
          · rename_i hlen
            cases h
            exact hvia (.inr (.inl (by simpa using hlen)))
          · split at h
            · rename_i hphone
              cases h
              exact hvia (.inr (.inr hphone))
            · cases h
              exact .inl rfl

theorem lookupUriImsi_flagged {next : Option SmState} (hv : m.parsedIsValid = true)
    (hg : ∀ sip uri user sender newfrom,
      ¬ m.MapsFromUnflagged env s sip uri user sender newfrom)
    (h : m.lookupUriImsi lib env s = .ok (next, m')) : Flagged m m' := by
  unfold lookupUriImsi at h
  rw [parse_of_valid hv] at h
  obtain ⟨⟨ok, m1⟩, h1, h⟩ := Except.bind_eq_ok.1 h
  cases h1
  obtain ⟨sip, hsip, h⟩ := Except.bind_eq_ok.1 h
  obtain ⟨uri, huri, h⟩ := Except.bind_eq_ok.1 h
  have htree := deref_eq_ok hsip
  split at h
  · cases h
    exact .unedited rfl rfl
  · rename_i hscheme
    dsimp only at h
    split at h
    · cases h
      exact .unedited rfl rfl
    · rename_i user huser
      split at h
      · rename_i hneeds
        split at h
        · cases h
          exact .inl rfl
        · rename_i hunknown
          split at h
          · cases h
            exact .unedited rfl rfl
          · rename_i hrelay
            obtain ⟨sender?, hsender?, h⟩ := Except.bind_eq_ok.1 h
            obtain ⟨sender, hsender, h⟩ := Except.bind_eq_ok.1 h
            have hname : sip.fromUsername = .ok (some sender) := by
              rw [hsender?, deref_eq_ok hsender]
            cases h
            cases hmap : env.hlr.mapCLIDGlobal sender with
            | none => exact .unedited htree.symm rfl
            | some newfrom =>
              by_cases hb : m.parsedIsBetter = true
              · exact .inl hb
              · refine .unedited ?_ rfl
                change some (setFromUsername sip newfrom) = m.parsed
                have hsame : newfrom = sender := by
                  by_contra hne
                  exact hg sip uri user sender newfrom ⟨Bool.eq_false_iff.2 hb, htree,
                    deref_eq_ok huri, not_not.1 hscheme, huser, hneeds, hunknown,
                    Bool.eq_false_iff.2 hrelay, hname, hmap, hne⟩
                rw [hsame, setFromUsername_self hname, htree]
      · split at h
        · cases h
          exact .unedited rfl rfl
        · cases h
          exact .unedited rfl rfl

theorem lookupUriHostport_flagged {next : SmState} (hv : m.parsedIsValid = true)
    (h : m.lookupUriHostport lib env s = .ok (next, m')) : Flagged m m' := by
  unfold lookupUriHostport at h
  rw [parse_of_valid hv] at h
  obtain ⟨⟨ok, m1⟩, h1, h⟩ := Except.bind_eq_ok.1 h
  cases h1
  obtain ⟨sip, -, h⟩ := Except.bind_eq_ok.1 h
  obtain ⟨uri, -, h⟩ := Except.bind_eq_ok.1 h
  split at h
  · cases h
    exact .unedited rfl rfl
  · obtain ⟨uri2, -, h⟩ := Except.bind_eq_ok.1 h
    obtain ⟨host, -, h⟩ := Except.bind_eq_ok.1 h
    dsimp only at h
    split at h
    · obtain ⟨c, -, h⟩ := Except.bind_eq_ok.1 h
      obtain ⟨number, -, h⟩ := Except.bind_eq_ok.1 h
      cases h
      exact .inl rfl
    · obtain ⟨c, -, h⟩ := Except.bind_eq_ok.1 h
      obtain ⟨number, -, h⟩ := Except.bind_eq_ok.1 h
      cases h
      exact .inl rfl

theorem packAs_flagged {body : CString} {ok : Bool}
    (h : m.packAs lib env body = .ok (ok, m')) : Flagged m m' := by
  cases packAs_cases h with
  | plain _ h =>
    obtain ⟨sip, sip', -, -, rfl⟩ := packPlainText_steps h
    exact .inl rfl
  | encode _ h =>
    obtain ⟨m1, sip, sip', -, -, -, rfl⟩ := packTextToTpdu_steps h
    exact .inl rfl
  | recode _ _ _ h =>
    obtain ⟨-, rfl⟩ | ⟨-, s, -, h1⟩ := recodeTpdu_steps h
    · exact .unedited rfl rfl
    · exact .inl (createSmsDelivery_fields h1).2.2
  | packed => exact .unedited rfl rfl
  | unsupported => exact .unedited rfl rfl

theorem packSmsForDelivery_flagged {ok : Bool} (hv : m.parsedIsValid = true)
    (h : m.packSmsForDelivery lib env = .ok (ok, m')) : Flagged m m' := by
  obtain ⟨-, -, rfl⟩ | ⟨-, body, m1, flag, -, hpack, rfl⟩ := packSmsForDelivery_steps hv h
  · exact .unedited rfl rfl
  · have hflagged := packAs_flagged hpack
    exact hflagged

theorem sendSIP_flagged {address : CString} (h : SMq.sendSIP m address = .ok m') :
    Flagged m m' := by
  unfold SMq.sendSIP at h
  obtain ⟨sip, -, h⟩ := Except.bind_eq_ok.1 h
  obtain ⟨sip', -, h⟩ := Except.bind_eq_ok.1 h
  cases h
  exact .inl rfl

end ShortMsg

open ShortMsg (Flagged)

/-! ## One pass -/

namespace SMq

/-- An edit of the head is flagged. -/
theorem HeadEdit.flagged {sm : ShortMsg} (hv : h.parsedIsValid = true)
    (hg : q.FlagsEdits lib env h) (he : q.HeadEdit lib env h sm) : Flagged h.toShortMsg sm := by
  cases he with
  | lookupFromAddress hs hl => exact ShortMsg.lookupFromAddress_flagged (hg.via hs) hl
  | lookupUriImsi hs hl => exact ShortMsg.lookupUriImsi_flagged hv (hg.mapped hs) hl
  | lookupUriHostport _ hl => exact ShortMsg.lookupUriHostport_flagged hv hl
  | packSmsForDelivery _ hp => exact ShortMsg.packSmsForDelivery_flagged hv hp
  | sendSIPInit _ _ _ hl => exact ShortMsg.sendSIP_flagged hl

end SMq

/-- The message has a tree, and the text and the tree agree where the flags say so. -/
structure Cached (lib : Libs) (m : ShortMsg) : Prop where
  valid : m.parsedIsValid = true
  coherent : m.Coherent lib

variable {sm : ShortMsg}

/-- A message that passes the checks has a tree that was made from its text. -/
theorem ShortMsgPending.Validated.cached (h : Validated lib x sm x') (hv : x.parsedIsValid = false) :
    Cached lib x'.toShortMsg ∧ x'.parsedIsBetter = false := by
  obtain ⟨hbetter, hcoherent⟩ := ShortMsg.parse_coherent hv h.parse
  obtain ⟨relay, tag, hash, rfl⟩ := h.same
  exact ⟨⟨(ShortMsg.parse_valid h.parse :), hcoherent.of_same rfl rfl rfl rfl rfl⟩, hbetter⟩

theorem ShortMsg.unparse_not_valid {m m' : ShortMsg} (h : m.unparse lib = .ok m') :
    m'.parsedIsValid = false := by
  unfold ShortMsg.unparse at h
  dsimp only at h
  split at h
  · obtain ⟨m1, -, h⟩ := Except.bind_eq_ok.1 h
    cases h
    rfl
  · cases h
    rfl

namespace SMq

/-- The messages that the program originates pass the checks as texts. -/
theorem finishMsg_cached (hf : finishMsg lib env s x = .ok (0, x')) : Cached lib x'.toShortMsg := by
  unfold finishMsg at hf
  obtain ⟨sm, -, hf⟩ := Except.bind_eq_ok.1 hf
  obtain ⟨sm', hsm', hf⟩ := Except.bind_eq_ok.1 hf
  obtain ⟨sm'', hv⟩ := ShortMsgPending.validated_of_ok hf
  exact (hv.cached (ShortMsg.unparse_not_valid hsm')).1

end SMq

theorem cached_kept (hinv : ∀ p, lib.messageParse (lib.messageToStr p) = some p) :
    Kept lib (Cached lib) where
  valid := fun _ hc => hc.valid
  prints := fun _ _ hc hfit h =>
    ⟨(ShortMsg.Refresh.tree hc.valid (.inl h)).1, hc.coherent.prints hinv hfit h⟩
  finished := fun _ _ _ _ _ _ hf => SMq.finishMsg_cached hf

/-- An edit of the head keeps its text and its tree together. -/
theorem Cached.edited (hg : q.FlagsEdits lib env h) (he : q.HeadEdit lib env h sm)
    (hc : Cached lib h.toShortMsg) : Cached lib sm := by
  have hedited := he.treeEdited hc.valid
  exact ⟨hedited.valid.trans hc.valid, hc.coherent.edited (he.flagged hc.valid hg) hedited⟩

/-- A pass that originates no message leaves trees that the messages had, or that it makes of its
head. -/
theorem SMq.Makes.tree {P : SipMessage → Prop} (hh : h ∈ q.timeSortedList)
    (hq : ∀ m ∈ q.timeSortedList, m.parsedIsValid = true ∧ ∃ p, m.parsed = some p ∧ P p)
    (ho : ∀ m, ¬ q.Originated lib env h m)
    (he : ∀ sm, q.HeadEdit lib env h sm → ∃ p, sm.parsed = some p ∧ P p)
    (hm : q.Makes lib env h x) : x.parsedIsValid = true ∧ ∃ p, x.parsed = some p ∧ P p := by
  obtain ⟨m, hm, hchanges⟩ := hm
  have hstart : m.parsedIsValid = true ∧ ∃ p, m.parsed = some p ∧ P p := by
    rcases hm with hm | hm | hm
    · exact hq m hm
    · obtain ⟨y, hy, rfl⟩ := List.mem_map.1 hm
      split
      · exact hq h hh
      · exact hq y hy
    · cases hm with
      | inserted horiginated => exact absurd horiginated (ho _)
  induction hchanges with
  | refl => exact hstart
  | tail _ hchange ih =>
    obtain ⟨hv, p, hp, hP⟩ := ih
    cases hchange with
    | refresh hr =>
      obtain ⟨hv', hp'⟩ := ShortMsg.Refresh.tree hv hr
      exact ⟨hv', p, hp'.trans hp, hP⟩
    | edit _ _ hedit => exact ⟨(hedit.treeEdited (hq h hh).1).valid.trans (hq h hh).1, he _ hedit⟩
    | tag _ ht =>
      obtain ⟨⟨tag, hash, rfl⟩, -⟩ := ShortMsgPending.setQtag_ok hv ht
      exact ⟨hv, p, hp, hP⟩
    | move _ => exact ⟨hv, p, hp, hP⟩

/-! ## Runs -/

namespace Daemon

theorem StartCoherent.holds (h : d.StartCoherent lib) : d.Holds (Cached lib) := by
  refine { h.sound with queue := fun m hm => ⟨h.valid m hm, h.coherent m hm⟩
                        accepted := fun smp hsmp => ?_ }
  rw [h.reader] at hsmp
  cases hsmp

/-- A step that flags its edits keeps texts and trees together. -/
theorem Holds.next_cached {a : DaemonAct} (hinv : ∀ p, lib.messageParse (lib.messageToStr p) = some p)
    (h : d.Holds (Cached lib)) (hg : d.FlagsEdits lib a) (hn : d.next lib a = some d') :
    d'.Holds (Cached lib) := by
  refine h.next (cached_kept hinv) hn (fun env buffer srcaddr smp _ hv => ?_)
    (fun env ha head hhead hdue => ?_) (fun ha m hm sm hc hp => ?_)
  · obtain ⟨sm, hvalid⟩ := ShortMsgPending.validated_of_ok hv
    exact hvalid.cached rfl
  · subst ha
    have hflags := hg head hhead hdue
    exact ⟨fun sm he hc _ => hc.edited hflags he, hflags.fits⟩
  · have hfits : d.queue.TextsFit lib := by
      rcases ha with rfl | ⟨s, rfl⟩
      · exact hg
      · exact hg
    exact (cached_kept hinv).prints _ _ hc (hfits m hm) hp

/-- The text of a queued message is parsed into its tree, where the flags say so. -/
theorem coherent_of_flagsEdits (lib : Libs)
    (hinv : ∀ p, lib.messageParse (lib.messageToStr p) = some p) {d : Daemon}
    (h : Runs.GuardedRun (StartCoherent lib) (Step lib) (FlagsEdits lib) d) :
    ∀ m ∈ d.queue.timeSortedList, m.toShortMsg.Coherent lib := by
  have hall : d.Holds (Cached lib) := h.invariant (Holds (Cached lib))
    (fun _ h0 => h0.holds) fun _ _ _ hi hg hn => hi.next_cached hinv hg hn
  exact fun m hm => (hall.queue m hm).coherent

/-! ## A sender that is looked up -/

/-- A message from a handset. -/
def imsiSip : SipMessage :=
  { sampleRequest with
    fromHeader := some ⟨none, some (sampleUri (str "IMSI001010000000001") none),
      [(str "tag", some (str "7"))]⟩ }

/-- The message with the number of the handset. -/
def numberedSip : SipMessage :=
  { sampleRequest with
    vias := sampleRequest.vias ++ sampleVias.map Prod.snd
    fromHeader := some ⟨some (str "+15550001"), some (sampleUri (str "+15550001") none),
      [(str "tag", some (str "7"))]⟩ }

def numberLibs : Libs := sampleLibs [imsiSip, numberedSip, sampleRequest] sampleVias

theorem known_numbered : SampleLibs.Known [imsiSip, numberedSip, sampleRequest] :=
  ⟨by decide +kernel, by decide +kernel, by decide +kernel, by decide +kernel, by decide +kernel⟩

/-- The registry knows the number of the handset. -/
def numberEnv : Env :=
  { sampleEnv 0 with
    hlr := { getCLIDLocal := fun s =>
      if s = str "IMSI001010000000001" then some (str "+15550001") else none } }

/-- The sender of the first message is to be looked up. -/
def numberDaemon : Daemon where
  queue :=
    { settings := {}
      timeSortedList :=
        [queuedMsg 0 .requestFromAddressLookup 0 imsiSip,
          queuedMsg 1 .requestDestinationSipurl 100 sampleRequest]
      nextId := 2 }
  events := []
  reader := .waiting
  writer := .waiting

theorem queuedMsg_coherent {known : List SipMessage} {vias : List (CString × Via)} {sip : SipMessage}
    {id : MsgId} {state : SmState} {due : Time} (hk : SampleLibs.Known known) (hs : sip ∈ known) :
    (queuedMsg id state due sip).toShortMsg.Coherent (sampleLibs known vias) := by
  intro _ _
  refine ⟨SampleLibs.messageText sip, sip, rfl, rfl, ?_⟩
  change SampleLibs.parse known (ShortMsg.buffer (SampleLibs.messageText sip)
    (SampleLibs.messageText sip).length) = some sip
  have hparse := SampleLibs.parse_toStr hk sip
  unfold SampleLibs.toStr at hparse
  rw [if_pos hs] at hparse
  rw [ShortMsg.buffer_self]
  exact hparse

theorem numberDaemon_start : numberDaemon.StartCoherent numberLibs where
  distinct := ⟨by decide, by decide⟩
  reader := rfl
  writer := rfl
  events := fun _ he => (by cases he)
  fits := Nat.zero_le _
  valid := List.forall_mem_cons.2 ⟨rfl, List.forall_mem_singleton.2 rfl⟩
  coherent := List.forall_mem_cons.2 ⟨queuedMsg_coherent known_numbered (by simp),
    List.forall_mem_singleton.2 (queuedMsg_coherent known_numbered (by simp))⟩

/-- The lookup replaces the sender, and says so. -/
theorem number_lookup : ((parsedMsg imsiSip).lookupFromAddress numberLibs numberEnv {}).toOption.map
    (fun r => (r.1, r.2.parsed, r.2.parsedIsBetter)) =
      some (.requestDestinationImsi, some numberedSip, true) := by
  decide +kernel

theorem number_flagsEdits : numberDaemon.queue.FlagsEdits numberLibs numberEnv
    (queuedMsg 0 .requestFromAddressLookup 0 imsiSip) where
  via := by
    rintro - sip url user ⟨-, hsip, hurl, -, huser, -, -, hreturns⟩
    obtain rfl := Option.some.inj hsip
    obtain rfl := Option.some.inj hurl
    obtain rfl := Option.some.inj huser
    revert hreturns
    decide +kernel
  mapped := fun hs => nomatch hs
  fits := by
    have htexts : ∀ sip ∈ [imsiSip, numberedSip, sampleRequest],
        (numberLibs.messageToStr sip).length < 2 ^ 16 := by decide +kernel
    have hqueue : ∀ m ∈ numberDaemon.queue.timeSortedList, m.parsedIsValid = true ∧
        ∃ p, m.parsed = some p ∧ p ∈ [imsiSip, numberedSip, sampleRequest] :=
      List.forall_mem_cons.2 ⟨⟨rfl, _, rfl, by simp⟩,
        List.forall_mem_singleton.2 ⟨rfl, _, rfl, by simp⟩⟩
    intro m hm sip hsip
    obtain ⟨-, p, hp, hmem⟩ := hm.tree List.mem_cons_self hqueue
      (fun x ho => by
        cases ho with
        | reply hs | notLocated hs | registered hs | register hs | awaited hs => cases hs
        | answered _ ha => cases ha.1)
      (fun sm hedit => by
        cases hedit with
        | lookupFromAddress _ hl =>
          have hlook := number_lookup
          have hl' : (parsedMsg imsiSip).lookupFromAddress numberLibs numberEnv {} = .ok (_, sm) := hl
          rw [hl'] at hlook
          obtain ⟨-, hparsed⟩ := Prod.mk.inj (Option.some.inj hlook)
          exact ⟨numberedSip, (Prod.mk.inj hparsed).1, by simp⟩
        | lookupUriImsi hs | lookupUriHostport hs | packSmsForDelivery hs | sendSIPInit hs => cases hs)
    obtain rfl := Option.some.inj (hp.symm.trans hsip)
    exact htexts p hmem

/-- The trees of the messages, and which of them are newer than the texts. -/
def treesOf (d : Daemon) : List (Option SipMessage × Bool) :=
  d.queue.timeSortedList.map fun m => (m.parsed, m.parsedIsBetter)

/-- The text of the new tree is printed by the dump behind the pass. -/
theorem coherent_of_flagsEdits_numbered : ∃ d,
    numberDaemon.run numberLibs [.receive, .pass numberEnv, .unlock, .tidy (some {})] = some d ∧
      treesOf d = [(some numberedSip, false), (some sampleRequest, false)] ∧
      ∀ m ∈ d.queue.timeSortedList, m.toShortMsg.Coherent numberLibs := by
  have hpassed : (numberDaemon.run numberLibs [.receive, .pass numberEnv, .unlock]).map treesOf =
      some [(some numberedSip, true), (some sampleRequest, false)] := by decide +kernel
  have hend : (numberDaemon.run numberLibs
      [.receive, .pass numberEnv, .unlock, .tidy (some {})]).map treesOf =
        some [(some numberedSip, false), (some sampleRequest, false)] := by decide +kernel
  obtain ⟨d4, hrun, htrees⟩ := Option.map_eq_some_iff.1 hend
  obtain ⟨d1, h1, hrun1⟩ := Option.bind_eq_some_iff.1 hrun
  obtain ⟨d2, h2, hrun2⟩ := Option.bind_eq_some_iff.1 hrun1
  obtain ⟨d3, h3, hrun3⟩ := Option.bind_eq_some_iff.1 hrun2
  obtain ⟨d4', h4, hd4⟩ := Option.bind_eq_some_iff.1 hrun3
  obtain rfl := Option.some.inj hd4
  have hrun' : numberDaemon.run numberLibs [.receive, .pass numberEnv, .unlock] = some d3 :=
    Option.bind_eq_some_iff.2 ⟨d1, h1, Option.bind_eq_some_iff.2 ⟨d2, h2,
      Option.bind_eq_some_iff.2 ⟨d3, h3, rfl⟩⟩⟩
  rw [hrun'] at hpassed
  have hfits : d3.queue.TextsFit numberLibs := by
    have htexts : ∀ t ∈ [(some numberedSip, true), (some sampleRequest, false)], ∀ sip ∈ t.1,
        (numberLibs.messageToStr sip).length < 2 ^ 16 := by decide +kernel
    intro m hm sip hsip
    refine htexts (m.parsed, m.parsedIsBetter) ?_ sip hsip
    rw [← Option.some.inj hpassed]
    exact List.mem_map_of_mem hm
  have hguard : d1.FlagsEdits numberLibs (.pass numberEnv) := by
    obtain rfl := Option.some.inj h1
    rintro m ⟨⟩ -
    exact number_flagsEdits
  have hr0 : Runs.GuardedRun (StartCoherent numberLibs) (Step numberLibs) (FlagsEdits numberLibs)
      numberDaemon := .start numberDaemon_start
  have hr1 := hr0.next (a := DaemonAct.receive) trivial h1
  have hr2 := hr1.next (a := DaemonAct.pass numberEnv) hguard h2
  have hr3 := hr2.next (a := DaemonAct.unlock) trivial h3
  have hr4 := hr3.next (a := DaemonAct.tidy (some {})) hfits h4
  exact ⟨d4', hrun, htrees, coherent_of_flagsEdits numberLibs
    (SampleLibs.parse_toStr known_numbered) hr4⟩

/-! ## A header that the text does not have -/

/-- The sender of the message is to be looked up. -/
def lookupDaemon : Daemon where
  queue :=
    { settings := {}
      timeSortedList := [queuedMsg 0 .requestFromAddressLookup 0 sampleRequest]
      nextId := 1 }
  events := []
  reader := .waiting
  writer := .waiting

set_option maxRecDepth 4000 in
theorem parsedMsg_coherent : (parsedMsg sampleRequest).Coherent
    (sampleLibs [sampleRequest] sampleVias) := by
  intro _ _
  refine ⟨_, _, rfl, rfl, ?_⟩
  change SampleLibs.parse [sampleRequest]
    (ShortMsg.buffer (SampleLibs.messageText sampleRequest)
      (SampleLibs.messageText sampleRequest).length) = some sampleRequest
  rw [ShortMsg.buffer_self]
  have hparse := SampleLibs.parse_toStr SampleLibs.known_sampleRequest sampleRequest
  unfold SampleLibs.toStr at hparse
  rw [if_pos (List.mem_singleton_self _)] at hparse
  exact hparse

theorem lookupDaemon_start : lookupDaemon.StartCoherent (sampleLibs [sampleRequest] sampleVias) where
  distinct := ⟨by decide, by decide⟩
  reader := rfl
  writer := rfl
  events := fun _ he => (by cases he)
  fits := Nat.zero_le _
  valid := fun m hm => by
    obtain rfl := List.mem_singleton.1 hm
    rfl
  coherent := fun m hm => by
    obtain rfl := List.mem_singleton.1 hm
    exact parsedMsg_coherent

/-- The message after the lookup. -/
def lookedUpMsg : ShortMsgPending :=
  { queuedMsg 0 .requestDestinationImsi 1 sampleRequest with
    parsed := some { sampleRequest with vias := sampleRequest.vias ++ sampleVias.map Prod.snd } }

/-- The text of a message whose sender was looked up lacks the header that was added to its tree. -/
theorem not_coherent_lookedUp : ¬ ∀ (lib : Libs), lib.Lawful → ∀ d : Daemon,
    Runs.Reachable (StartCoherent lib) (Step lib) d →
    ∀ m ∈ d.queue.timeSortedList, m.toShortMsg.Coherent lib := by
  intro hall
  have h0 : Runs.Reachable (StartCoherent (sampleLibs [sampleRequest] sampleVias))
      (Step (sampleLibs [sampleRequest] sampleVias)) lookupDaemon := .start lookupDaemon_start
  have h1 := h0.next (a := DaemonAct.receive) trivial rfl
  have h2 := h1.next (a := DaemonAct.pass (sampleEnv 1)) trivial rfl
  have hc := hall _ (SampleLibs.lawful SampleLibs.known_sampleRequest sampleVias) _ h2 lookedUpMsg
    (List.mem_singleton.2 rfl)
  obtain ⟨text, sip, htext, hsip, hparse⟩ := hc rfl rfl
  obtain ⟨text', sip', htext', hsip', hparse'⟩ := parsedMsg_coherent rfl rfl
  obtain rfl := Option.some.inj (htext.symm.trans htext')
  have hsame : sip' = sip := Option.some.inj (hparse'.symm.trans hparse)
  rw [← Option.some.inj hsip, ← Option.some.inj hsip'] at hsame
  cases congrArg (fun p => p.vias.length) hsame

end Daemon

end Smqueue
