import Madoka.Auth.OAuth

namespace OAuth

open Lib Utf16

def Mark.Issues (k : Kind) (openId tok : Text) (t : Int) : Mark → Prop
  | .issued o access refresh now =>
    o = openId ∧ now = t ∧ tok = match k with
      | .access => access
      | .refresh => refresh
  | .rotated _ now body => k = .access ∧ body.openId = openId ∧ now = t ∧ tok = body.accessToken
  | _ => False

def Mark.Writes (k : Kind) (openId : Text) : Mark → Prop
  | .issued o _ _ _ => o = openId
  | .rotated _ _ body => k = .access ∧ body.openId = openId
  | .cleared o _ => o = openId
  | _ => False

def Mark.OfRequest (r : Nat) : Mark → Prop
  | .opened r' _ _ _ => r' = r
  | .rotated r' _ _ => r' = r
  | _ => False

def Mark.Opens (r : Nat) (user : User) (m : Mark) : Prop := ∃ token now, m = .opened r user token now

def Held (pre : List Mark) (k : Kind) (openId tok : Text) (t : Int) : Prop :=
  Latest (Mark.Writes k openId) (Mark.Issues k openId tok t) pre

def Answer.openId : Answer → Option Text
  | .inspected body => some body.openId
  | .exchanged body => some body.openId
  | .next user => some user.openId
  | _ => none

def Answer.expiry : Answer → Option Int
  | .inspected body => body.expiryTime
  | .exchanged body => body.expiryTime
  | .debugged body => body.expiresAt
  | .next user => user.accessExpiry
  | _ => none

def Answer.Welcomes : Answer → Prop
  | .inspected _ => True
  | .exchanged _ => True
  | .debugged _ => True
  | .next _ => True
  | _ => False

structure Admitted (pre : List Mark) (o : Text) (token : Param) (now : Int) (answer : Answer) : Prop where
  held : ∃ tok t, token = .text tok ∧ Held pre .access o tok t ∧ now ≤ t + ACCESS_TTL_SECONDS ∧
    answer.expiry = some (t + ACCESS_TTL_SECONDS)
  openId : ∀ x, answer.openId = some x → x = o
  exchanged : ∀ body, answer = .exchanged body → token = .text (body.accessToken.getD []) ∧
    ∀ f, body.refreshToken = some f → ∃ t, Held pre .refresh o f t ∧
      body.refreshExpiryTime = some (t + REFRESH_TTL_SECONDS)

def Justified (pre : List Mark) : Mark → Prop
  | .answered none _ _ answer => ¬answer.Welcomes
  | .answered (some o) token now answer => Admitted pre o token now answer
  | .opened _ user token now => user.refreshToken = some token ∧ ∃ t,
    Held pre .refresh user.openId token t ∧ now ≤ t + REFRESH_TTL_SECONDS
  | .rotated r now body => body.expiryTime = now + ACCESS_TTL_SECONDS ∧ ∃ user,
    Latest (Mark.OfRequest r) (Mark.Opens r user) pre ∧ user.openId = body.openId ∧
      user.refreshToken = body.refreshToken
  | .gated A reached openId loginToken decision => A.strict reached openId = true → decision = none →
    ∃ t, Held pre .access openId loginToken t
  | .cleared _ answer => ¬answer.Welcomes
  | .issued .. => True

section Rows

variable {guests guests' : List User} {k : Kind} {u user : User} {token : Param} {now : Int} {v : Verdict}
  {openId tok : Text} {f : User → User}

theorem mem_updateGuest (h : u ∈ updateGuest guests openId f) :
    (u ∈ guests ∧ u.openId ≠ openId) ∨ ∃ x ∈ guests, x.openId = openId ∧ u = f x := by
  obtain ⟨x, hx, rfl⟩ := List.mem_map.mp h
  by_cases ho : x.openId = openId
  · rw [if_pos ho]
    exact Or.inr ⟨x, hx, ho, rfl⟩
  · rw [if_neg ho]
    exact Or.inl ⟨hx, ho⟩

theorem updateGuest_mem (hu : u ∈ guests) (ho : u.openId = openId) : f u ∈ updateGuest guests openId f :=
  List.mem_map.mpr ⟨u, hu, if_pos ho⟩

theorem findByToken_spec (h : findByToken guests k tok = some u) : u ∈ guests ∧ u.token k = some tok := by
  unfold findByToken at h
  split at h
  · cases h
  · exact ⟨List.mem_of_find?_eq_some h, by simpa using List.find?_some h⟩

theorem findByOpenId_spec (h : findByOpenId guests openId = some u) : u ∈ guests ∧ u.openId = openId :=
  ⟨List.mem_of_find?_eq_some h, by simpa using List.find?_some h⟩

theorem validate_ok (h : validate guests k token now = .ok u) : ∃ tok e, token = .text tok ∧ u ∈ guests ∧
    u.token k = some tok ∧ u.expiry k = some e ∧ now ≤ e ∧ u.renovation = false := by
  unfold validate at h
  split at h
  · rename_i c t
    split at h
    · cases h
    · rename_i x hx
      split at h
      · cases h
      · rename_i hren
        split at h
        · cases h
        · rename_i e he
          split at h
          · cases h
          · cases h
            obtain ⟨hmem, htok⟩ := findByToken_spec hx
            exact ⟨c :: t, e, rfl, hmem, htok, he, by omega, by simpa using hren⟩
  · cases h

theorem checkRegistration_none {A : Gate} {reached : Bool} {loginToken : Text}
    (hs : A.strict reached openId = true)
    (h : A.checkRegistration guests reached openId loginToken = none) :
    ∃ u ∈ guests, u.openId = openId ∧ u.accessToken = some loginToken := by
  unfold Gate.strict at hs
  simp only [Bool.and_eq_true, Bool.not_eq_true'] at hs
  obtain ⟨⟨⟨⟨he, hen⟩, htok⟩, hreach⟩, hguest⟩ := hs
  unfold Gate.checkRegistration at h
  simp only [he, hen, hreach, hguest, htok, Bool.not_true, Bool.false_eq_true, if_false, if_true] at h
  split at h
  · cases h
  · rename_i g hg
    unfold guestByOpenId at hg
    split at hg
    · cases hg
    · obtain ⟨hmem, ho⟩ := findByOpenId_spec hg
      split at h
      · cases h
      · split at h
        · cases h
        · rename_i hsame
          simp only [Bool.or_eq_true, bne_iff_ne, ne_eq, not_or, not_not] at hsame
          exact ⟨g, hmem, ho, hsame.2.symm⟩

end Rows

def User.Good (log : List Mark) (u : User) : Prop :=
  ∀ k tok, u.token k = some tok → ∃ t, Held log k u.openId tok t ∧ u.expiry k = some (t + k.ttl)

def Stage.Good (log : List Mark) (r : Nat) : Stage → Prop
  | .clearing _ answer => ¬answer.Welcomes
  | .rotating user => Latest (Mark.OfRequest r) (Mark.Opens r user) log

structure Server.Sound (v : Server) : Prop where
  rows : ∀ u ∈ v.guests, u.Good v.log
  stages : ∀ r stage, v.requests r = some stage → stage.Good v.log r
  log : Each Justified v.log

namespace Server

variable {v v' : Server} {m : Mark} {e : Event} {es : List Event} {r : Nat}

theorem good_other {log : List Mark} {u : User} (h : u.Good log) (hm : ∀ k, ¬m.Writes k u.openId) :
    u.Good (log ++ [m]) := by
  intro k tok htok
  obtain ⟨t, hheld, he⟩ := h k tok htok
  exact ⟨t, hheld.snoc_other (hm k), he⟩

theorem good_write {log : List Mark} {guests : List User} {openId : Text} {f : User → User}
    (h : ∀ u ∈ guests, u.Good log) (hf : ∀ u, (f u).openId = u.openId)
    (hm : ∀ k o, m.Writes k o → o = openId)
    (hput : ∀ u k tok, u.openId = openId → (f u).token k = some tok →
      (∃ t, m.Issues k openId tok t ∧ (f u).expiry k = some (t + k.ttl)) ∨
        ¬m.Writes k openId ∧ u.token k = some tok ∧ (f u).expiry k = u.expiry k) :
    ∀ u ∈ updateGuest guests openId f, u.Good (log ++ [m]) := by
  intro u hu
  rcases mem_updateGuest hu with ⟨hmem, hne⟩ | ⟨x, hx, ho, rfl⟩
  · exact good_other (h u hmem) fun k hw => hne (hm k _ hw)
  · intro k tok htok
    rw [hf, ho]
    rcases hput x k tok ho htok with ⟨t, hissue, he⟩ | ⟨hquiet, hold, he⟩
    · exact ⟨t, Latest.snoc hissue, he⟩
    · obtain ⟨t, hheld, hexp⟩ := h x hx k tok hold
      rw [ho] at hheld
      exact ⟨t, hheld.snoc_other hquiet, he.trans hexp⟩

theorem stage_other {log : List Mark} {stage : Stage} (h : stage.Good log r) (hm : ¬m.OfRequest r) :
    stage.Good (log ++ [m]) r := by
  cases stage with
  | clearing o answer => exact h
  | rotating user => exact Latest.snoc_other h hm

theorem Sound.tell (h : v.Sound) (hw : ∀ k o, ¬m.Writes k o) (hr : ∀ r, ¬m.OfRequest r)
    (hj : Justified v.log m) : (v.tell m).Sound where
  rows := fun u hu => good_other (h.rows u hu) fun k => hw k _
  stages := fun r stage hs => stage_other (h.stages r stage hs) (hr r)
  log := each_snoc.mpr ⟨h.log, hj⟩

theorem Sound.wait {stage : Stage} (h : v.Sound) (hs : stage.Good v.log r) :
    (v.wait r (some stage)).Sound where
  rows := h.rows
  stages := by
    intro r' st hst
    by_cases hr : r' = r
    · subst hr
      have hst' : Function.update v.requests r' (some stage) r' = some st := hst
      rw [Function.update_self] at hst'
      cases hst'
      exact hs
    · have hst' : Function.update v.requests r (some stage) r' = some st := hst
      rw [Function.update_of_ne hr] at hst'
      exact h.stages r' st hst'
  log := h.log

theorem waiting_none {st : Stage} {r' : Nat} (h : (v.wait r none).requests r' = some st) :
    r' ≠ r ∧ v.requests r' = some st := by
  have h' : Function.update v.requests r none r' = some st := h
  by_cases hr : r' = r
  · subst hr
    rw [Function.update_self] at h'
    cases h'
  · rw [Function.update_of_ne hr] at h'
    exact ⟨hr, h'⟩

theorem reject_refuses {token : Param} {w : Verdict} {route : Route} : ¬(route.reject token w).Welcomes := by
  cases route with
  | inspect => exact id
  | exchange => exact id
  | withUser =>
    dsimp only [Route.reject]
    split
    · exact id
    · split <;> exact id
  | debugToken =>
    dsimp only [Route.reject]
    split
    · exact id
    · split <;> exact id

theorem Sound.refuse {token : Param} {now : Int} {answer : Answer} (h : v.Sound)
    (ha : ¬answer.Welcomes) : (v.tell (.answered none token now answer)).Sound :=
  h.tell (fun _ _ => id) (fun _ => id) ha

theorem welcome_admitted {route : Route} {token : Param} {now : Int} {user : User} (h : v.Sound)
    (hv : validate v.guests .access token now = .ok user) :
    Admitted v.log user.openId token now (route.welcome user) := by
  obtain ⟨tok, e, rfl, hmem, htok, he, hle, -⟩ := validate_ok hv
  obtain ⟨t, hheld, hexp⟩ := h.rows user hmem .access tok htok
  have hsame : e = t + ACCESS_TTL_SECONDS := Option.some.inj (he.symm.trans hexp)
  refine ⟨⟨tok, t, rfl, hheld, hsame ▸ hle, ?_⟩, ?_, ?_⟩
  · cases route <;> exact hexp
  · intro x hx
    cases route <;> cases hx <;> rfl
  · intro body hbody
    cases route with
    | exchange =>
      cases hbody
      have hbody' : user.accessToken = some tok := htok
      refine ⟨by rw [hbody']; rfl, fun f hf => ?_⟩
      obtain ⟨t', hheld', hexp'⟩ := h.rows user hmem .refresh f hf
      exact ⟨t', hheld', hexp'⟩
    | inspect => cases hbody
    | withUser => cases hbody
    | debugToken => cases hbody

theorem Sound.present {route : Route} {token : Param} {now : Int} (h : v.Sound) :
    (v.present r route token now).Sound := by
  unfold Server.present
  split
  · rename_i user hv
    exact h.tell (fun _ _ => id) (fun _ => id) (welcome_admitted h hv)
  · exact h.wait reject_refuses
  · exact h.refuse reject_refuses

theorem Sound.refresh {token : Param} {now : Int} (h : v.Sound) (hr : v.requests r = none) :
    (v.refresh r token now).Sound := by
  unfold Server.refresh
  split
  · rename_i user hv
    obtain ⟨tok, e, rfl, hmem, htok, he, hle, -⟩ := validate_ok hv
    obtain ⟨t, hheld, hexp⟩ := h.rows user hmem .refresh tok htok
    have hsame : e = t + REFRESH_TTL_SECONDS := Option.some.inj (he.symm.trans hexp)
    refine ⟨fun u hu => good_other (h.rows u hu) fun _ => id, fun r' stage hs => ?_,
      each_snoc.mpr ⟨h.log, htok, t, hheld, hsame ▸ hle⟩⟩
    have hs' : Function.update v.requests r (some (.rotating user)) r' = some stage := hs
    by_cases hr' : r' = r
    · subst hr'
      rw [Function.update_self] at hs'
      cases hs'
      exact Latest.snoc ⟨tok, now, rfl⟩
    · rw [Function.update_of_ne hr'] at hs'
      exact stage_other (h.stages r' stage hs') fun heq => hr' heq.symm
  · exact h.wait id
  · exact h.refuse id

theorem Sound.logout {access refresh : Param} {now : Int} (h : v.Sound) :
    (v.logout r access refresh now).Sound := by
  unfold Server.logout
  split
  · split
    · exact h.refuse id
    · exact h.wait id
  · exact h.refuse id

theorem Sound.login {openId access refresh : Text} {now : Int} (h : v.Sound) :
    ({ v with guests := setTokens v.guests openId (issueTokens access refresh now) }.tell
      (.issued openId access refresh now)).Sound where
  rows := by
    refine good_write h.rows (fun _ => rfl) (fun _ _ hw => hw.symm) fun u k tok _ htok => Or.inl ⟨now, ?_⟩
    cases k with
    | access =>
      cases htok
      exact ⟨⟨rfl, rfl, rfl⟩, rfl⟩
    | refresh =>
      cases htok
      exact ⟨⟨rfl, rfl, rfl⟩, rfl⟩
  stages := fun r stage hs => stage_other (h.stages r stage hs) id
  log := each_snoc.mpr ⟨h.log, trivial⟩

theorem Sound.clear {openId : Text} {answer : Answer} (h : v.Sound)
    (hr : v.requests r = some (.clearing openId answer)) :
    (({ v with guests := clearTokens v.guests openId }.wait r none).tell (.cleared openId answer)).Sound where
  rows := by
    refine good_write h.rows (fun _ => rfl) (fun _ _ hw => hw.symm) fun u k tok _ htok => ?_
    cases k <;> cases htok
  stages := by
    intro r' stage hs
    obtain ⟨-, hold⟩ := waiting_none hs
    exact stage_other (h.stages r' stage hold) id
  log := each_snoc.mpr ⟨h.log, h.stages r _ hr⟩

theorem Sound.rotate {user : User} {access : Text} {now : Int} (h : v.Sound)
    (hr : v.requests r = some (.rotating user)) :
    (({ v with guests :=
      refreshAccessToken v.guests user.openId access (rotated user access now).expiryTime }.wait r none).tell
        (.rotated r now (rotated user access now))).Sound where
  rows := by
    refine good_write h.rows (fun _ => rfl) (fun _ _ hw => hw.2.symm) fun u k tok _ htok => ?_
    cases k with
    | access =>
      cases htok
      exact Or.inl ⟨now, ⟨rfl, rfl, rfl, rfl⟩, rfl⟩
    | refresh => exact Or.inr ⟨fun hw => (by cases hw.1), htok, rfl⟩
  stages := by
    intro r' stage hs
    obtain ⟨hne, hold⟩ := waiting_none hs
    exact stage_other (h.stages r' stage hold) fun heq => hne heq.symm
  log := each_snoc.mpr ⟨h.log, rfl, user, h.stages r _ hr, rfl, rfl⟩

theorem Sound.gate {A : Gate} {reached : Bool} {openId loginToken : Text} (h : v.Sound) :
    (v.tell (.gated A reached openId loginToken
      (A.checkRegistration v.guests reached openId loginToken))).Sound := by
  refine h.tell (fun _ _ => id) (fun _ => id) fun hs hd => ?_
  obtain ⟨u, hu, rfl, htok⟩ := checkRegistration_none hs hd
  obtain ⟨t, hheld, -⟩ := h.rows u hu .access loginToken htok
  exact ⟨t, hheld⟩

theorem Sound.quiet {guests : List User} (h : v.Sound) (hg : ∀ u ∈ guests, u.Good v.log) :
    Sound { v with guests := guests } := ⟨hg, h.stages, h.log⟩

theorem sound_step (h : v.Sound) (hs : v.Step e v') : v'.Sound := by
  unfold Step step at hs
  cases e with
  | insertUser openId uid =>
    obtain ⟨g, hg, rfl⟩ := Option.map_eq_some_iff.mp hs
    refine h.quiet fun u hu => ?_
    unfold OAuth.insertUser at hg
    split at hg
    · cases hg
    · cases hg
      rcases List.mem_append.mp hu with hu | hu
      · exact h.rows u hu
      · rw [List.mem_singleton.mp hu]
        intro k tok htok
        cases k <;> cases htok
  | renovate openId renovation =>
    cases hs
    refine h.quiet fun u hu => ?_
    rcases mem_updateGuest hu with ⟨hmem, -⟩ | ⟨x, hx, -, rfl⟩
    · exact h.rows u hmem
    · intro k tok htok
      cases k with
      | access => exact h.rows x hx .access tok htok
      | refresh => exact h.rows x hx .refresh tok htok
  | login openId access refresh now =>
    cases hs
    exact h.login
  | present r route token now =>
    dsimp only at hs
    split at hs
    · cases hs
      exact h.present
    · cases hs
  | refresh r body query now =>
    dsimp only at hs
    split at hs
    · rename_i hr
      cases hs
      exact h.refresh hr
    · cases hs
  | logout r access refresh now =>
    dsimp only at hs
    split at hs
    · cases hs
      exact h.logout
    · cases hs
  | clear r =>
    dsimp only at hs
    split at hs
    · rename_i openId answer hr
      cases hs
      exact h.clear hr
    · cases hs
  | rotate r access now =>
    dsimp only at hs
    split at hs
    · rename_i user hr
      cases hs
      exact h.rotate hr
    · cases hs
  | giveUp r =>
    dsimp only at hs
    split at hs
    · cases hs
      refine ⟨h.rows, fun r' stage hst => ?_, h.log⟩
      exact h.stages r' stage (waiting_none hst).2
    · cases hs
  | gate A reached openId loginToken =>
    cases hs
    exact h.gate

theorem sound_start : start.Sound :=
  ⟨fun u hu => absurd hu List.not_mem_nil, fun r stage hs => (by cases hs), each_nil⟩

-- A player logs in, his token is inspected and exchanged, and he refreshes it.
def visit : List Event :=
  [.insertUser (text "42") 10000001, .login (text "42") (text "a") (text "r") 100,
    .present 0 .inspect (.text (text "a")) 200, .refresh 1 .absent (.text (text "r")) 300,
    .rotate 1 (text "b") 300, .present 0 .inspect (.text (text "a")) 400,
    .present 0 .exchange (.text (text "b")) 1296300, .present 0 .withUser (.text (text "b")) 1296301]

end Server

end OAuth
