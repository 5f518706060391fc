import Madoka.Auth.SignIn
import Madoka.Lib.History
import Madoka.Tokens.Verify

namespace Auth.Store

variable {b : Backend} {s : Store} {now : Int} {P Q : Pairing → Prop}

structure Holds (P : Pairing → Prop) (s : Store) : Prop where
  row : ∀ r, s.row = some r → P r
  doc : ∀ p q, s.polls p = some q → P q.doc

namespace Holds

theorem imp (h : Holds P s) (hPQ : ∀ r, P r → Q r) : Holds Q s :=
  ⟨fun r hr => hPQ r (h.row r hr), fun p q hq => hPQ q.doc (h.doc p q hq)⟩

theorem createPending (h : Holds P s) {uri : Lib.Utf16.Text} {ttl : Int}
    (hnew : ∀ r : Pairing, r.status = .pending → P r) : Holds P (s.createPending now uri ttl) := by
  unfold Store.createPending
  split
  · exact h
  · refine ⟨fun r hr => ?_, h.doc⟩
    obtain rfl := Option.some.inj hr
    exact hnew _ rfl

theorem mark (h : Holds P s) {f : Pairing → Pairing}
    (hf : ∀ r, b.sees now s.row = some r → r.status = .pending → P (f r)) : Holds P (s.mark b now f) := by
  unfold Store.mark
  split
  · split
    · refine ⟨fun r hr => ?_, h.doc⟩
      obtain rfl := Option.some.inj hr
      exact hf _ ‹_› ‹_›
    · exact h
  · exact h

theorem drop (h : Holds P s) : Holds P { s with row := none } :=
  ⟨fun _ hr => absurd hr (by simp), h.doc⟩

theorem expire (h : Holds P s) : Holds P (s.expire now) := by
  unfold Store.expire
  split
  · split
    · exact h.drop
    · exact h
  · exact h

theorem answer (h : Holds P s) (a : Answer) : Holds P (s.answer a) := by
  refine ⟨h.row, fun p q hq => ?_⟩
  unfold Store.answer at hq
  dsimp only at hq
  rw [Function.update_apply] at hq
  split at hq
  · cases hq
  · exact h.doc p q hq

theorem read (h : Holds P s) {p : Nat} : Holds P (s.read b now p) := by
  unfold Store.read
  split
  · exact h
  · split
    · exact h.answer _
    · rename_i r hr
      split
      · exact h.answer _
      · refine ⟨h.row, fun i q hq => ?_⟩
        dsimp only at hq
        rw [Function.update_apply] at hq
        split at hq
        · obtain rfl := Option.some.inj hq
          exact h.row r (mem_of_sees hr).1
        · exact h.doc i q hq

theorem take (h : Holds P s) {p : Nat} : Holds P (s.take b now p) := by
  have hrest : ∀ hit : Bool, Holds P { s with row := if hit then none else s.row } := by
    intro hit
    cases hit with
    | false => exact h
    | true => exact h.drop
  unfold Store.take
  split
  · exact h
  · dsimp only
    split
    · exact (hrest _).answer _
    · split
      · exact (hrest _).answer _
      · exact (hrest _).answer _

end Holds

def Says (P : Pairing → Prop) (a : Answer) : Prop :=
  a.reply = .expired ∨ a.reply = .pending ∨ ∃ r, P r ∧ a.reply = r.reply

theorem read_answers (P : Pairing → Prop) (p : Nat) :
    ∃ l, (step b s ⟨now, .read p⟩).answers = s.answers ++ l ∧ ∀ a ∈ l, Says P a := by
  change ∃ l, (s.read b now p).answers = s.answers ++ l ∧ ∀ a ∈ l, Says P a
  unfold Store.read
  split
  · exact ⟨[], by simp⟩
  · split
    · exact ⟨[_], rfl, fun a ha => Or.inl (by rw [List.mem_singleton.mp ha])⟩
    · split
      · exact ⟨[_], rfl, fun a ha => Or.inr (Or.inl (by rw [List.mem_singleton.mp ha]))⟩
      · exact ⟨[], by simp⟩

theorem Holds.take_answers (h : Holds P s) (p : Nat) :
    ∃ l, (step b s ⟨now, .take p⟩).answers = s.answers ++ l ∧ ∀ a ∈ l, Says P a := by
  change ∃ l, (s.take b now p).answers = s.answers ++ l ∧ ∀ a ∈ l, Says P a
  unfold Store.take
  split
  · exact ⟨[], by simp⟩
  · rename_i q hq
    dsimp only
    split
    · exact ⟨[_], rfl, fun a ha => Or.inr (Or.inr ⟨q.doc, h.doc p q hq, by rw [List.mem_singleton.mp ha]⟩)⟩
    · split
      · rename_i r hr
        have hrow := (Option.filter_eq_some_iff.mp hr).1
        exact ⟨[_], rfl, fun a ha => Or.inr (Or.inr ⟨r, h.row r hrow, by rw [List.mem_singleton.mp ha]⟩)⟩
      · exact ⟨[_], rfl, fun a ha => Or.inl (by rw [List.mem_singleton.mp ha])⟩

theorem reply_completed {r : Pairing} {url : Option Lib.Utf16.Text} (h : r.reply = .completed url) :
    r.status = .completed ∧ r.redirectUrl = url := by
  unfold Pairing.reply at h
  split at h
  · exact ⟨‹_›, by simpa using h⟩
  · cases h
  · cases h

end Auth.Store

namespace SignIn

open Lib Utf16

variable {K : Keys} {uri pairId nonce : Text} {t now : Int} {part sig : List UInt8}

theorem standardDigit_url : ∀ i < 64, standardDigit (Base64.url.digit i) = Base64.standard.digit i := by
  decide

theorem base64UrlDecode_b64url (bytes : List UInt8) : base64UrlDecode (Tokens.b64url bytes) = bytes := by
  have hdigits : (Base64.encode Base64.url bytes).map standardDigit = Base64.encode Base64.standard bytes := by
    rw [Base64.encode, Base64.encode, List.map_map]
    apply List.map_congr_left
    intro i hi
    exact standardDigit_url i (Base64.sextets_lt bytes i hi)
  have hpad : (4 - (4 * bytes.length + 2) / 3 % 4) % 4 = (3 - bytes.length % 3) % 3 := by
    have hthree : bytes.length % 3 = 0 ∨ bytes.length % 3 = 1 ∨ bytes.length % 3 = 2 := by omega
    rcases hthree with h | h | h <;> omega
  rw [Tokens.b64url_eq, base64UrlDecode, hdigits, Base64.length_encode, hpad]
  exact Base64.decodeLenient_padded rfl bytes

theorem cut_append (h : Tokens.dot ∉ part) : cut (part ++ Tokens.dot :: sig) = some (part, sig) := by
  have hne : ∀ x ∈ part, (decide (x ≠ Tokens.dot)) = true := by
    intro x hx
    exact decide_eq_true fun heq => h (heq ▸ hx)
  rw [cut, List.dropWhile_append_of_pos hne, List.takeWhile_append_of_pos hne]
  simp

theorem signedPart_signState : signedPart K (signState K uri pairId nonce t) =
    some (encodedState K uri pairId nonce t) := by
  have hcut : cut (signState K uri pairId nonce t) = some (encodedState K uri pairId nonce t, _) :=
    cut_append (Tokens.dot_not_mem_b64url _)
  rw [signedPart, hcut, Option.bind_some]
  dsimp only
  rw [base64UrlDecode_b64url, if_pos rfl]

theorem verifySignedRequest_buildSignedRequest (ticket : Ticket) :
    verifySignedRequest K (buildSignedRequest K ticket) =
      K.json.parse (K.json.stringify (requestBody K ticket)) := by
  rw [verifySignedRequest, buildSignedRequest, cut_append (Tokens.dot_not_mem_b64url _), Option.bind_some]
  dsimp only
  rw [base64UrlDecode_b64url, if_pos rfl, base64UrlDecode_b64url]

theorem readBody_encodedState (huri : uri ≠ [])
    (hjson : K.json.parse (K.json.stringify (stateBody uri pairId nonce t)) = some (stateBody uri pairId nonce t)) :
    readBody K (encodedState K uri pairId nonce t) now =
      if now - t > DEFAULT_MAX_AGE_SECONDS then .expired
      else .ok uri (if pairId = [] then none else some pairId) := by
  obtain ⟨c, r, rfl⟩ := List.exists_cons_of_ne_nil huri
  rw [readBody, encodedState, base64UrlDecode_b64url, hjson]
  cases pairId with
  | nil => simp [stateBody, Json.int, List.lookup, pairOf]
  | cons d p => simp [stateBody, Json.int, List.lookup, pairOf]

theorem verifyState_signState (huri : uri ≠ [])
    (hjson : K.json.parse (K.json.stringify (stateBody uri pairId nonce t)) = some (stateBody uri pairId nonce t)) :
    verifyState K (signState K uri pairId nonce t) now =
      if now - t > DEFAULT_MAX_AGE_SECONDS then .expired
      else .ok uri (if pairId = [] then none else some pairId) := by
  have hcut : cut (signState K uri pairId nonce t) = some (encodedState K uri pairId nonce t, _) :=
    cut_append (Tokens.dot_not_mem_b64url _)
  rw [verifyState, hcut]
  dsimp only
  rw [signedPart_signState]
  exact readBody_encodedState huri hjson

theorem verifyState_ok {state : List UInt8} {p : Option Text} (h : verifyState K state now = .ok uri p) :
    ∃ encoded, signedPart K state = some encoded ∧ readBody K encoded now = .ok uri p := by
  unfold verifyState at h
  split at h
  · cases h
  · split at h
    · cases h
    · exact ⟨_, ‹_›, h⟩

theorem normalizeRedirectUri_mem (u : Text) : normalizeRedirectUri u ∈ ALLOWED_REDIRECT_URIS := by
  unfold normalizeRedirectUri
  split
  · assumption
  · exact List.mem_singleton_self _

theorem ne_nil_of_allowed (h : uri ∈ ALLOWED_REDIRECT_URIS) : uri ≠ [] := by
  rw [List.mem_singleton.mp h]
  decide

namespace Mark

def about : Mark → Option Nat
  | .verified c _ _ _ => some c
  | .found c _ => some c
  | .identified c _ => some c
  | .signedIn c _ _ => some c
  | .completed c _ _ => some c
  | _ => none

-- The signed part of the state that a dialog hands to the browser.
def encoded (K : Keys) : Mark → Option (List UInt8)
  | .minted pairId redirectUri nonce now => some (encodedState K redirectUri pairId nonce now)
  | _ => none

end Mark

def told (c : Nat) (log : List Mark) : List Mark := log.filter fun m => m.about = some c

-- The callback c presented a state of this pairing in time, and this is what it has done since.
def Opened (log : List Mark) (c : Nat) (uri pairId : Text) (since : List Mark) : Prop :=
  ∃ nonce t0 t1, uri ∈ ALLOWED_REDIRECT_URIS ∧ t1 ≤ t0 + DEFAULT_MAX_AGE_SECONDS ∧
    [Mark.minted pairId uri nonce t0, Mark.verified c uri pairId t1].Sublist log ∧
    told c log = Mark.verified c uri pairId t1 :: since

-- The sign-in behind a URL, from the dialog to the completed pairing.
def SignedIn (K : Keys) (log : List Mark) (pairId url : Text) : Prop :=
  ∃ c uri nonce t0 t1 row user ticket, uri ∈ ALLOWED_REDIRECT_URIS ∧
    t1 ≤ t0 + DEFAULT_MAX_AGE_SECONDS ∧ row.status = .pending ∧ url = redirectUrl K uri ticket ∧
    [Mark.minted pairId uri nonce t0, Mark.verified c uri pairId t1].Sublist log ∧
    [Mark.verified c uri pairId t1, Mark.found c row, Mark.identified c user, Mark.signedIn c user ticket,
      Mark.completed c pairId url] <+: told c log

namespace Stage

def Told (K : Keys) (log : List Mark) (c : Nat) : Stage → Prop
  | .findByPairId uri p => Opened log c uri p []
  | .exchangeCode uri p => ∃ row, row.status = .pending ∧ Opened log c uri p [.found c row]
  | .completeDiscordLogin uri p user =>
    ∃ row, row.status = .pending ∧ Opened log c uri p [.found c row, .identified c user]
  | .markCompleted p url =>
    ∃ uri row user ticket, row.status = .pending ∧ url = redirectUrl K uri ticket ∧
      Opened log c uri p [.found c row, .identified c user, .signedIn c user ticket]
  | .markFailed _ _ => True

end Stage

section Log

variable {log l : List Mark} {m : Mark} {c : Nat} {since : List Mark} {url : Text} {stage : Stage}

theorem told_append : told c (log ++ l) = told c log ++ told c l := List.filter_append _ _

theorem told_other (h : ∀ m ∈ l, m.about ≠ some c) : told c (log ++ l) = told c log := by
  have hnil : told c l = [] := by
    apply List.filter_eq_nil_iff.mpr
    intro m hm
    simpa using h m hm
  rw [told_append, hnil, List.append_nil]

theorem told_snoc (h : m.about = some c) : told c (log ++ [m]) = told c log ++ [m] := by
  have hm : told c [m] = [m] := List.filter_eq_self.mpr (by simp [h])
  rw [told_append, hm]

theorem Opened.other (h : Opened log c uri pairId since) (hl : ∀ m ∈ l, m.about ≠ some c) :
    Opened (log ++ l) c uri pairId since := by
  obtain ⟨nonce, t0, t1, huri, ht, hsub, htold⟩ := h
  exact ⟨nonce, t0, t1, huri, ht, hsub.trans (List.sublist_append_left log l), by rw [told_other hl, htold]⟩

theorem Opened.snoc (h : Opened log c uri pairId since) (hm : m.about = some c) :
    Opened (log ++ [m]) c uri pairId (since ++ [m]) := by
  obtain ⟨nonce, t0, t1, huri, ht, hsub, htold⟩ := h
  refine ⟨nonce, t0, t1, huri, ht, hsub.trans (List.sublist_append_left log [m]), ?_⟩
  rw [told_snoc hm, htold]
  rfl

theorem SignedIn.append (h : SignedIn K log pairId url) : SignedIn K (log ++ l) pairId url := by
  obtain ⟨c, uri, nonce, t0, t1, row, user, ticket, huri, ht, hrow, hurl, hsub, htold⟩ := h
  refine ⟨c, uri, nonce, t0, t1, row, user, ticket, huri, ht, hrow, hurl, ?_, ?_⟩
  · exact hsub.trans (List.sublist_append_left log l)
  · rw [told_append]
    exact htold.trans (List.prefix_append _ _)

theorem SignedIn.completed {user : Text} {row : Auth.Pairing} {ticket : Ticket} (hrow : row.status = .pending)
    (hurl : url = redirectUrl K uri ticket)
    (h : Opened log c uri pairId [.found c row, .identified c user, .signedIn c user ticket]) :
    SignedIn K (log ++ [.completed c pairId url]) pairId url := by
  obtain ⟨nonce, t0, t1, huri, ht, hsub, htold⟩ := h
  refine ⟨c, uri, nonce, t0, t1, row, user, ticket, huri, ht, hrow, hurl, ?_, ?_⟩
  · exact hsub.trans (List.sublist_append_left log _)
  · rw [told_snoc rfl, htold]
    exact List.prefix_rfl

theorem Stage.Told.other (h : stage.Told K log c) (hl : ∀ m ∈ l, m.about ≠ some c) :
    stage.Told K (log ++ l) c := by
  cases stage with
  | findByPairId uri p => exact Opened.other h hl
  | exchangeCode uri p =>
    obtain ⟨row, hrow, h⟩ := h
    exact ⟨row, hrow, h.other hl⟩
  | completeDiscordLogin uri p user =>
    obtain ⟨row, hrow, h⟩ := h
    exact ⟨row, hrow, h.other hl⟩
  | markCompleted p url =>
    obtain ⟨uri, row, user, ticket, hrow, hurl, h⟩ := h
    exact ⟨uri, row, user, ticket, hrow, hurl, h.other hl⟩
  | markFailed p error => trivial

end Log

def Backed (K : Keys) (log : List Mark) (pairId : Text) (r : Auth.Pairing) : Prop :=
  r.status = .completed → ∃ url, r.redirectUrl = some url ∧ SignedIn K log pairId url

def HandedOver (K : Keys) (before : List Mark) (m : Mark) : Prop :=
  ∀ pairId url, m = .polled pairId (.completed url) →
    ∃ u, url = some u ∧ SignedIn K before pairId u

namespace System

variable {b : Auth.Backend} {v v' : System} {e : Event} {c : Nat} {stage : Stage}

-- Nobody but the service signs with its secret.
def Unforged (K : Keys) (v : System) : Event → Prop
  | .callback state _ => ∀ part ∈ signedPart K state, ∃ m ∈ v.log, m.encoded K = some part
  | _ => True

-- JSON.parse reads the states back that JSON.stringify has written.
def Readable (K : Keys) (log : List Mark) : Prop :=
  ∀ pairId uri nonce t, Mark.minted pairId uri nonce t ∈ log →
    K.json.parse (K.json.stringify (stateBody uri pairId nonce t)) = some (stateBody uri pairId nonce t)

structure Sound (K : Keys) (v : System) : Prop where
  fresh : ∀ c, v.next ≤ c → v.callbacks c = none ∧ told c v.log = []
  stage : ∀ c stage, v.callbacks c = some stage → stage.Told K v.log c
  store : ∀ p, (v.stores p).Holds (Backed K v.log p)
  minted : ∀ p uri nonce t, Mark.minted p uri nonce t ∈ v.log → uri ∈ ALLOWED_REDIRECT_URIS
  polled : Each (HandedOver K) v.log

theorem sound_start : Sound K start where
  fresh := fun _ _ => ⟨rfl, rfl⟩
  stage := fun _ _ h => absurd h (by simp [start])
  store := fun _ => ⟨fun _ h => absurd h (by simp [start, Auth.Store.empty]),
    fun _ _ h => absurd h (by simp [start, Auth.Store.empty])⟩
  minted := fun _ _ _ _ h => absurd h (by simp [start])
  polled := each_nil

namespace Sound

theorem below (h : Sound K v) (hc : v.callbacks c = some stage) : c < v.next := by
  by_contra hge
  have hnone := (h.fresh c (by omega)).1
  rw [hc] at hnone
  cases hnone

theorem put (h : Sound K v) {p : Text} {s : Auth.Store} (hs : s.Holds (Backed K v.log p)) :
    Sound K (v.put p s) :=
  { h with
    store := fun q => by
      unfold System.put
      dsimp only
      rw [Function.update_apply]
      split
      · subst q
        exact hs
      · exact h.store q }

theorem goto (h : Sound K v) {stage' : Option Stage} (hc : c < v.next)
    (hstage : ∀ st, stage' = some st → st.Told K v.log c) : Sound K (v.goto c stage') :=
  { h with
    fresh := fun d hd => by
      have hne : d ≠ c := (Nat.lt_of_lt_of_le hc hd).ne'
      unfold System.goto
      dsimp only
      rw [Function.update_of_ne hne]
      exact h.fresh d hd
    stage := fun d st hst => by
      unfold System.goto at hst
      dsimp only at hst
      rw [Function.update_apply] at hst
      split at hst
      · subst d
        exact hstage st hst
      · exact h.stage d st hst }

theorem advance (h : Sound K v) {stage' : Option Stage} {m : Mark} (hc : c < v.next) (hm : m.about = some c)
    (hstage : ∀ st, stage' = some st → st.Told K (v.log ++ [m]) c) : Sound K ((v.goto c stage').tell m) where
  fresh := fun d hd => by
    have hne : d ≠ c := (Nat.lt_of_lt_of_le hc hd).ne'
    obtain ⟨hnone, hnil⟩ := h.fresh d hd
    refine ⟨?_, ?_⟩
    · unfold System.tell System.goto
      dsimp only
      rw [Function.update_of_ne hne, hnone]
    · have hother : ∀ x ∈ [m], x.about ≠ some d := by
        intro x hx
        rw [List.mem_singleton.mp hx, hm]
        exact fun heq => hne (Option.some.inj heq).symm
      exact (told_other hother).trans hnil
  stage := fun d st hst => by
    unfold System.tell System.goto at hst
    dsimp only at hst
    rw [Function.update_apply] at hst
    split at hst
    · subst d
      exact hstage st hst
    · rename_i hne
      refine (h.stage d st hst).other fun x hx => ?_
      rw [List.mem_singleton.mp hx, hm]
      exact fun heq => hne (Option.some.inj heq).symm
  store := fun p => (h.store p).imp fun r hr hterm => by
    obtain ⟨url, hurl, hsigned⟩ := hr hterm
    exact ⟨url, hurl, hsigned.append⟩
  minted := fun p uri nonce t hmem => by
    rcases List.mem_append.mp hmem with hmem | hmem
    · exact h.minted p uri nonce t hmem
    · rw [← List.mem_singleton.mp hmem] at hm
      cases hm
  polled := by
    refine each_snoc.mpr ⟨h.polled, fun p url heq => ?_⟩
    rw [heq] at hm
    cases hm

theorem note (h : Sound K v) {l : List Mark} (hl : ∀ m ∈ l, m.about = none)
    (hminted : ∀ p uri nonce t, Mark.minted p uri nonce t ∈ l → uri ∈ ALLOWED_REDIRECT_URIS)
    (hpolled : ∀ m ∈ l, HandedOver K v.log m) : Sound K { v with log := v.log ++ l } := by
  have hother : ∀ d, ∀ m ∈ l, m.about ≠ some d := by
    intro d m hm
    simp [hl m hm]
  exact
    { fresh := fun d hd => ⟨(h.fresh d hd).1, (told_other (hother d)).trans (h.fresh d hd).2⟩
      stage := fun d st hst => (h.stage d st hst).other (hother d)
      store := fun p => (h.store p).imp fun r hr hterm => by
        obtain ⟨url, hurl, hsigned⟩ := hr hterm
        exact ⟨url, hurl, hsigned.append⟩
      minted := fun p uri nonce t hmem => by
        rcases List.mem_append.mp hmem with hmem | hmem
        · exact h.minted p uri nonce t hmem
        · exact hminted p uri nonce t hmem
      polled := by
        refine each_append h.polled fun pre m post heq p url hm => ?_
        have hmem : m ∈ l := by simp [heq]
        obtain ⟨u, hu, hsigned⟩ := hpolled m hmem p url hm
        exact ⟨u, hu, hsigned.append⟩ }

theorem dialog (h : Sound K v) {p u n : Text} {created t : Int} : Sound K (v.dialog p u n created t) := by
  unfold System.dialog
  split
  · exact h
  · refine Sound.note (h.put ?_) ?_ ?_ ?_
    · exact (h.store p).createPending fun r hr hterm => absurd (hr.symm.trans hterm) (by decide)
    · intro m hm
      rw [List.mem_singleton.mp hm]
      rfl
    · intro q uri nonce t' hm
      cases List.mem_singleton.mp hm
      exact normalizeRedirectUri_mem u
    · intro m hm q url heq
      rw [List.mem_singleton.mp hm] at heq
      cases heq

theorem callback (h : Sound K v) {state : List UInt8} (hforged : Unforged K v (.callback state now))
    (hread : Readable K v.log) : Sound K (v.callback K state now) := by
  unfold System.callback
  split
  · rename_i uri p hok
    obtain ⟨part, hpart, hbody⟩ := verifyState_ok hok
    obtain ⟨m, hm, hmade⟩ := hforged part hpart
    obtain ⟨q, r, nonce, t, rfl⟩ : ∃ q r nonce t, m = .minted q r nonce t := by
      cases m with
      | minted q r nonce t => exact ⟨q, r, nonce, t, rfl⟩
      | _ => cases hmade
    obtain rfl := Option.some.inj hmade
    have hr := h.minted q r nonce t hm
    rw [readBody_encodedState (ne_nil_of_allowed hr) (hread q r nonce t hm)] at hbody
    have hin : now ≤ t + DEFAULT_MAX_AGE_SECONDS ∧ r = uri ∧ q = p := by
      split at hbody
      · cases hbody
      · rename_i hage
        split at hbody
        · cases hbody
        · cases hbody
          exact ⟨by omega, rfl, rfl⟩
    obtain ⟨hage, rfl, rfl⟩ := hin
    have hnext : Sound K { v with next := v.next + 1 } :=
      { h with fresh := fun c hc => h.fresh c (Nat.le_of_succ_le hc) }
    refine hnext.advance (Nat.lt_succ_self v.next) rfl fun st hst => ?_
    cases hst
    refine ⟨nonce, t, now, hr, hage, ?_, ?_⟩
    · exact (List.singleton_sublist.mpr hm).append (List.Sublist.refl _)
    · rw [told_snoc rfl, (h.fresh v.next (Nat.le_refl _)).2]
      rfl
  · exact h

theorem stop (h : Sound K v) (hc : c < v.next) : Sound K (v.goto c none) :=
  h.goto hc fun _ hst => absurd hst (by simp)

theorem findByPairId (h : Sound K v) {p : Text} (hc : v.callbacks c = some (.findByPairId uri p)) :
    Sound K (v.findByPairId b c uri p now) := by
  have hlt := h.below hc
  unfold System.findByPairId
  split
  · rename_i row hrow
    split
    · rename_i hpending
      refine h.advance hlt rfl fun st hst => ?_
      cases hst
      exact ⟨row, hpending, Opened.snoc (h.stage c _ hc) rfl⟩
    · exact h.stop hlt
  · exact h.stop hlt

theorem exchangeCode (h : Sound K v) {p : Text} {user : Option Text}
    (hc : v.callbacks c = some (.exchangeCode uri p)) : Sound K (v.exchangeCode c uri p user) := by
  have hlt := h.below hc
  cases user with
  | none =>
    refine h.goto hlt fun st hst => ?_
    cases hst
    trivial
  | some user =>
    refine h.advance hlt rfl fun st hst => ?_
    cases hst
    obtain ⟨row, hrow, hopened⟩ := h.stage c _ hc
    exact ⟨row, hrow, hopened.snoc rfl⟩

theorem completeDiscordLogin (h : Sound K v) {p user : Text} {flow : Flow}
    (hc : v.callbacks c = some (.completeDiscordLogin uri p user)) :
    Sound K (v.completeDiscordLogin K c uri p user flow) := by
  have hlt := h.below hc
  cases flow with
  | ok ticket =>
    refine h.advance hlt rfl fun st hst => ?_
    cases hst
    obtain ⟨row, hrow, hopened⟩ := h.stage c _ hc
    exact ⟨uri, row, user, ticket, hrow, rfl, hopened.snoc rfl⟩
  | renovation =>
    refine h.goto hlt fun st hst => ?_
    cases hst
    trivial
  | threw => exact h.stop hlt

theorem markCompleted (h : Sound K v) {p url : Text} (hc : v.callbacks c = some (.markCompleted p url)) :
    Sound K (v.markCompleted b c p url now) := by
  have hlt := h.below hc
  have hkeep : (∀ r, b.sees now (v.stores p).row = some r → r.status ≠ .pending) →
      Sound K ((v.put p ((v.stores p).markCompleted b now url)).goto c none) := by
    intro hnot
    refine (h.put ?_).stop hlt
    exact (h.store p).mark fun r hr hp => absurd hp (hnot r hr)
  unfold System.markCompleted
  dsimp only
  split
  · rename_i r hr
    split
    · obtain ⟨uri, row, user, ticket, hrow, hurl, hopened⟩ := h.stage c _ hc
      have hsigned : SignedIn K (v.log ++ [.completed c p url]) p url := SignedIn.completed hrow hurl hopened
      -- The mark comes first here: the row that is written rests on it.
      have hend : Sound K ((v.goto c none).tell (.completed c p url)) :=
        h.advance hlt rfl fun _ hst => absurd hst (by simp)
      refine Sound.put hend ?_
      exact (hend.store p).mark fun _ _ _ _ => ⟨url, rfl, hsigned⟩
    · rename_i hp
      refine hkeep fun r' hr' => ?_
      rw [hr] at hr'
      cases hr'
      exact hp
  · rename_i hr
    refine hkeep fun r' hr' => ?_
    rw [hr] at hr'
    cases hr'

theorem markFailed (h : Sound K v) {p error : Text} (hc : v.callbacks c = some (.markFailed p error)) :
    Sound K ((v.put p ((v.stores p).markFailed b now error)).goto c none) := by
  refine (h.put ?_).stop (h.below hc)
  exact (h.store p).mark fun _ _ _ hterm => absurd hterm (by simp [Auth.Pairing.fail])

theorem replies (h : Sound K v) {p : Text} {s : Auth.Store} {l : List Auth.Answer}
    (hs : s.Holds (Backed K v.log p)) (hl : ∀ a ∈ l, Auth.Store.Says (Backed K v.log p) a) :
    Sound K { v.put p s with log := v.log ++ l.map fun a => Mark.polled p a.reply } := by
  refine Sound.note (h.put hs) ?_ ?_ ?_
  · intro m hm
    obtain ⟨a, -, rfl⟩ := List.mem_map.mp hm
    rfl
  · intro q uri nonce t hm
    obtain ⟨a, -, heq⟩ := List.mem_map.mp hm
    cases heq
  · intro m hm q url heq
    obtain ⟨a, ha, rfl⟩ := List.mem_map.mp hm
    obtain ⟨rfl, hreply⟩ := Mark.polled.inj heq
    rcases hl a ha with hexp | hpend | ⟨r, hr, hreads⟩
    · rw [hreply] at hexp
      cases hexp
    · rw [hreply] at hpend
      cases hpend
    · obtain ⟨hterm, hurl⟩ := Auth.Store.reply_completed (hreads.symm.trans hreply)
      obtain ⟨u, hu, hsigned⟩ := hr hterm
      exact ⟨u, hurl.symm.trans hu, hsigned⟩

theorem poll (h : Sound K v) {p : Text} {op : Auth.Op} (hstep : v.poll b p op now = some v') : Sound K v' := by
  unfold System.poll at hstep
  dsimp only at hstep
  split at hstep
  · rename_i i
    obtain ⟨l, hanswers, hl⟩ := Auth.Store.read_answers (Backed K v.log p) i
    rw [hanswers, List.drop_left] at hstep
    cases hstep
    exact h.replies (h.store p).read hl
  · rename_i i
    obtain ⟨l, hanswers, hl⟩ := (h.store p).take_answers i
    rw [hanswers, List.drop_left] at hstep
    cases hstep
    exact h.replies (h.store p).take hl
  · cases hstep
    exact h.put (h.store p).expire
  · cases hstep

theorem step (h : Sound K v) (hs : Step K b v e v') (hforged : Unforged K v e) (hread : Readable K v.log) :
    Sound K v' := by
  unfold Step System.step at hs
  cases e with
  | dialog p u n created t =>
    cases hs
    exact h.dialog
  | callback state t =>
    cases hs
    exact h.callback hforged hread
  | findByPairId c t =>
    dsimp only at hs
    split at hs
    · cases hs
      exact h.findByPairId ‹_›
    · cases hs
  | exchangeCode c user =>
    dsimp only at hs
    split at hs
    · cases hs
      exact h.exchangeCode ‹_›
    · cases hs
  | completeDiscordLogin c flow =>
    dsimp only at hs
    split at hs
    · cases hs
      exact h.completeDiscordLogin ‹_›
    · cases hs
  | mark c t =>
    dsimp only at hs
    split at hs
    · cases hs
      exact h.markCompleted ‹_›
    · cases hs
      exact h.markFailed ‹_›
    · cases hs
  | giveUp c =>
    dsimp only at hs
    split at hs
    · cases hs
      exact h.stop (h.below ‹_›)
    · cases hs
  | poll p op t => exact h.poll hs

end Sound

theorem log_step (hs : Step K b v e v') : v.log <+: v'.log := by
  unfold Step System.step at hs
  have htell : ∀ (w : System) (m : Mark), w.log = v.log → v.log <+: (w.tell m).log := by
    intro w m hw
    exact ⟨[m], by rw [← hw]; rfl⟩
  have hsame : ∀ w : System, w.log = v.log → v.log <+: w.log := by
    intro w hw
    exact ⟨[], by rw [List.append_nil, hw]⟩
  cases e with
  | dialog p u n created t =>
    cases hs
    unfold System.dialog
    split
    · exact hsame _ rfl
    · exact htell _ _ rfl
  | callback state t =>
    cases hs
    unfold System.callback
    split
    · exact htell _ _ rfl
    · exact hsame _ rfl
  | findByPairId c t =>
    dsimp only at hs
    split at hs
    · cases hs
      unfold System.findByPairId
      split
      · split
        · exact htell _ _ rfl
        · exact hsame _ rfl
      · exact hsame _ rfl
    · cases hs
  | exchangeCode c user =>
    dsimp only at hs
    split at hs
    · cases hs
      cases user with
      | none => exact hsame _ rfl
      | some user => exact htell _ _ rfl
    · cases hs
  | completeDiscordLogin c flow =>
    dsimp only at hs
    split at hs
    · cases hs
      cases flow with
      | ok ticket => exact htell _ _ rfl
      | renovation => exact hsame _ rfl
      | threw => exact hsame _ rfl
    · cases hs
  | mark c t =>
    dsimp only at hs
    split at hs
    · cases hs
      unfold System.markCompleted
      dsimp only
      split
      · split
        · exact htell _ _ rfl
        · exact hsame _ rfl
      · exact hsame _ rfl
    · cases hs
      exact hsame _ rfl
    · cases hs
  | giveUp c =>
    dsimp only at hs
    split at hs
    · cases hs
      exact hsame _ rfl
    · cases hs
  | poll p op t =>
    dsimp only at hs
    unfold System.poll at hs
    dsimp only at hs
    split at hs
    · cases hs
      exact List.prefix_append _ _
    · cases hs
      exact List.prefix_append _ _
    · cases hs
      exact hsame _ rfl
    · cases hs

theorem sound_run {es : List Event} (h : Run (Guarded (Step K b) (Unforged K)) start es v)
    (hread : Readable K v.log) : Sound K v := by
  refine run_invariant (I := fun w => Readable K w.log → Sound K w) h (fun _ => sound_start) ?_ hread
  intro w e w' hw hs hread
  have hbefore : Readable K w.log := fun p uri nonce t hm => hread p uri nonce t ((log_step hs.1).subset hm)
  exact (hw hbefore).step hs.1 hs.2 hbefore

-- In every run in which no state is forged, what a status poll hands to the game is the URL of one
-- sign-in: a dialog minted the pairing, a callback presented its state in time, found the row pending,
-- learned who the user is, signed him in and completed the row with the URL of his ticket.
theorem handed_over {es : List Event} (h : Run (Guarded (Step K b) (Unforged K)) start es v)
    (hread : Readable K v.log) {before after : List Mark} {url : Option Text}
    (hlog : v.log = before ++ .polled pairId (.completed url) :: after) :
    ∃ u, url = some u ∧ SignedIn K before pairId u :=
  (sound_run h hread).polled before _ after hlog pairId url rfl

-- A game opens the dialog, its player signs in with Discord, and the game polls.
section Visit

def successUri : Text := text "fbconnect://success"

def visitPair : Text := text "AAECAwQFBgcICQoLDA0ODxAREhMUFRYX"

def visitBody : Json := stateBody successUri visitPair (text "AAECAwQFBgcICQoL") 1700000000

def visitStateText : List UInt8 :=
  Tokens.ascii ("\x7b\"r\":\"fbconnect://success\",\"n\":\"AAECAwQFBgcICQoL\",\"t\":1700000000," ++
    "\"p\":\"AAECAwQFBgcICQoLDA0ODxAREhMUFRYX\"\x7d")

def visitRequestText : List UInt8 :=
  Tokens.ascii ("\x7b\"algorithm\":\"HMAC-SHA256\",\"issued_at\":1700000100,\"user_id\":\"10000001\"," ++
    "\"code\":\"5f2c\",\"app_id\":\"36\"," ++
    "\"page\":\x7b\"id\":null,\"admin\":false,\"liked\":false\x7d\x7d")

def visitJson : Tokens.JsonText :=
  { Tokens.oneText "" visitBody with
    stringify := fun v =>
      match v with
      | .obj (("r", _) :: _) => visitStateText
      | _ => visitRequestText
    parse := fun bytes => if bytes = visitStateText then some visitBody else none }

def visitDigest (secret : List UInt8) : List UInt8 :=
  if secret = Tokens.ascii "state-secret" then
    [93, 33, 91, 136, 164, 70, 69, 8, 94, 51, 18, 248, 153, 213, 233, 172, 102, 190, 78, 149, 28, 135, 72, 90, 162, 142,
    11, 68, 121, 201, 1, 61]
  else
    [234, 204, 197, 49, 110, 78, 146, 57, 174, 134, 209, 104, 132, 63, 83, 56, 208, 50, 131, 47, 156, 213, 74, 135, 156,
    246, 47, 247, 26, 220, 1, 248]

def visitKeys : Keys where
  mac := ⟨fun secret _ => visitDigest secret, fun secret _ => by unfold visitDigest; split <;> rfl⟩
  json := visitJson
  stateSecret := Tokens.ascii "state-secret"
  appSecret := Tokens.ascii "app-secret"
  appId := text "36"

def visitTicket : Ticket := ⟨text "10000001", text "5f2c", 1700000100⟩

def visit : List Event :=
  [.dialog visitPair (text "https://example.org") (text "AAECAwQFBgcICQoL") 1700000000000 1700000000,
    .callback (signState visitKeys successUri visitPair (text "AAECAwQFBgcICQoL") 1700000000) 1700000099,
    .findByPairId 0 1700000099000, .exchangeCode 0 (some (text "42")),
    .completeDiscordLogin 0 (.ok visitTicket), .mark 0 1700000100000, .poll visitPair (.read 0) 1700000101000, .poll visitPair (.take 0) 1700000101001]

def visitUrl : Text := redirectUrl visitKeys successUri visitTicket

def visitLog : List Mark :=
  [.minted visitPair successUri (text "AAECAwQFBgcICQoL") 1700000000,
    .verified 0 successUri visitPair 1700000099,
    .found 0 ⟨0, successUri, .pending, none, none, 1700000000000, 1700000600000⟩, .identified 0 (text "42"),
    .signedIn 0 (text "42") visitTicket, .completed 0 visitPair visitUrl]

instance (K : Keys) (v : System) (e : Event) : Decidable (Unforged K v e) :=
  match e with
  | .callback state _ =>
    inferInstanceAs (Decidable (∀ part ∈ signedPart K state, ∃ m ∈ v.log, m.encoded K = some part))
  | .dialog .. => isTrue trivial
  | .findByPairId .. => isTrue trivial
  | .exchangeCode .. => isTrue trivial
  | .completeDiscordLogin .. => isTrue trivial
  | .mark .. => isTrue trivial
  | .giveUp .. => isTrue trivial
  | .poll .. => isTrue trivial

theorem visit_handed_over : ∃ v,
    Run (Guarded (Step visitKeys .pg) (Unforged visitKeys)) start visit v ∧
      v.log = visitLog ++ [.polled visitPair (.completed (some visitUrl))] ∧
      SignedIn visitKeys visitLog visitPair visitUrl := by
  have hrun : (visit.foldlM (fun v e => if Unforged visitKeys v e then v.step visitKeys .pg e else none)
      start).map (fun v => decide (v.log = visitLog ++ [.polled visitPair (.completed (some visitUrl))])) =
        some true := by decide +kernel
  obtain ⟨v, hv, hlog⟩ := Option.map_eq_some_iff.mp hrun
  have hlog := of_decide_eq_true hlog
  have hread : Readable visitKeys v.log := by
    intro p uri nonce t hm
    rw [hlog] at hm
    simp only [visitLog, List.cons_append, List.nil_append, List.mem_cons, reduceCtorEq, or_false,
      Mark.minted.injEq, List.not_mem_nil] at hm
    obtain ⟨rfl, rfl, rfl, rfl⟩ := hm
    change (if visitStateText = visitStateText then some visitBody else none) = some visitBody
    exact if_pos rfl
  obtain ⟨u, hu, hsigned⟩ := handed_over (run_of_checked hv) hread hlog
  cases hu
  exact ⟨v, run_of_checked hv, hlog, hsigned⟩

end Visit

end System

end SignIn
