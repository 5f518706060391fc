import Mathlib.Data.List.Induction
import Madoka.Lib.History
import Madoka.Friends.Repo

namespace Friends

-- The calls of the lobby, as the payload has them: an absent id is 0.
inductive Call where
  | requestAddingFriend (adder addee : Nat)
  | confirmFriendRequest (adder : Nat)
  | declineFriendRequest (adder : Nat)
  | removeFriend (removee : Nat)
  deriving DecidableEq, Repr

-- `reqObj.adder || account.uid` in the source.
def adderOf (uid adder : Nat) : Nat :=
  if adder = 0 then uid else adder

def handle (known : Nat → Bool) (t : Tables) (uid : Nat) : Call → Option Tables
  | .requestAddingFriend adder addee =>
    if adderOf uid adder = 0 ∨ addee = 0 then some t
    else addRequest known t addee (adderOf uid adder)
  | .confirmFriendRequest adder => if adder = 0 then some t else addFriendship known t uid adder
  | .declineFriendRequest adder => some (removeRequest t uid adder)
  | .removeFriend removee => some (if removee = 0 then t else removeFriendship t uid removee)

-- The account a call is authenticated as, and the call.
abbrev Signed := Nat × Call

def step (known : Nat → Bool) (t : Tables) (c : Signed) : Tables :=
  (handle known t c.1 c.2).getD t

def run (known : Nat → Bool) (calls : List Signed) : Tables :=
  calls.foldl (step known) noTables

variable {known : Nat → Bool} {t : Tables} {calls more : List Signed} {c : Signed} {a b x y uid : Nat}

theorem run_append : run known (calls ++ more) = more.foldl (step known) (run known calls) :=
  List.foldl_append

theorem run_snoc : run known (calls ++ [c]) = step known (run known calls) c :=
  run_append

def Removes (a b : Nat) (c : Signed) : Prop :=
  c = (a, .removeFriend b) ∨ c = (b, .removeFriend a)

-- Account x requested y under its own authentication, and the request has been pending since.
def Asked (known : Nat → Bool) (calls : List Signed) (x y : Nat) : Prop :=
  ∃ before adder after, calls = before ++ (x, .requestAddingFriend adder y) :: after ∧
    ∀ part, part <+: after →
      (y, x) ∈ (run known (before ++ (x, .requestAddingFriend adder y) :: part)).friendRequests

-- Account x requested y, y confirmed while that request was pending, and neither has removed
-- the other since.
def Agreed (known : Nat → Bool) (calls : List Signed) (x y : Nat) : Prop :=
  ∃ before after, calls = before ++ (y, .confirmFriendRequest x) :: after ∧
    Asked known before x y ∧ ∀ c ∈ after, ¬Removes x y c

def Enters (known : Nat → Bool) (a b : Nat) : Prop :=
  a ≠ 0 ∧ b ≠ 0 ∧ a ≠ b ∧ known a = true ∧ known b = true

-- A request that enters a row names its own sender as the adder, and a confirmation that makes a
-- friendship finds the request pending.
def Backed (known : Nat → Bool) (t : Tables) : Signed → Prop
  | (uid, .requestAddingFriend adder addee) =>
    Enters known addee (adderOf uid adder) →
      adderOf uid adder = uid ∨ (addee, adderOf uid adder) ∈ t.friendRequests
  | (uid, .confirmFriendRequest adder) =>
    Enters known uid adder → (uid, adder) ∈ t.friendRequests ∨
      (uid, adder) ∈ t.friendships ∧ (adder, uid) ∈ t.friendships
  | _ => True

instance : Decidable (Enters known a b) := by
  unfold Enters
  infer_instance

instance : Decidable (Backed known t c) :=
  match c with
  | (_, .requestAddingFriend ..) | (_, .confirmFriendRequest _) => by
    unfold Backed
    infer_instance
  | (_, .declineFriendRequest _) | (_, .removeFriend _) => isTrue trivial

def AllBacked (known : Nat → Bool) (calls : List Signed) : Prop :=
  ∀ before c after, calls = before ++ c :: after → Backed known (run known before) c

theorem AllBacked.init (h : AllBacked known (calls ++ [c])) :
    AllBacked known calls ∧ Backed known (run known calls) c := by
  constructor
  · intro before d after hc
    exact h before d (after ++ [c]) (by rw [hc, List.append_assoc, List.cons_append])
  · exact h calls c [] rfl

theorem allBacked_nil : AllBacked known [] := by
  intro before c after h
  exact absurd h (by simp)

theorem AllBacked.snoc (h : AllBacked known calls) (hc : Backed known (run known calls) c) :
    AllBacked known (calls ++ [c]) := by
  intro before d after heq
  rcases Lib.split_snoc heq with ⟨-, rfl, rfl⟩ | ⟨rest, -, hcalls⟩
  · exact hc
  · exact h before d rest hcalls

theorem Asked.snoc (h : Asked known calls x y) (hrow : (y, x) ∈ (run known (calls ++ [c])).friendRequests) :
    Asked known (calls ++ [c]) x y := by
  obtain ⟨before, adder, after, rfl, hpending⟩ := h
  refine ⟨before, adder, after ++ [c], by rw [List.append_assoc, List.cons_append], fun part hpart => ?_⟩
  rcases List.prefix_concat_iff.mp hpart with rfl | hpart
  · rw [List.append_assoc, List.cons_append] at hrow
    exact hrow
  · exact hpending part hpart

theorem Agreed.snoc (h : Agreed known calls x y) (hc : ¬Removes x y c) :
    Agreed known (calls ++ [c]) x y := by
  obtain ⟨before, after, rfl, hasked, hkept⟩ := h
  refine ⟨before, after ++ [c], by rw [List.append_assoc, List.cons_append], hasked, fun d hd => ?_⟩
  rcases List.mem_append.mp hd with hd | hd
  · exact hkept d hd
  · exact List.mem_singleton.mp hd ▸ hc

theorem asked_now {adder : Nat}
    (hrow : (y, x) ∈ (run known (calls ++ [(x, .requestAddingFriend adder y)])).friendRequests) :
    Asked known (calls ++ [(x, .requestAddingFriend adder y)]) x y := by
  refine ⟨calls, adder, [], rfl, fun part hpart => ?_⟩
  rw [List.prefix_nil.mp hpart]
  exact hrow

theorem agreed_now (h : Asked known calls x y) :
    Agreed known (calls ++ [(y, .confirmFriendRequest x)]) x y :=
  ⟨calls, [], rfl, h, nofun⟩

theorem step_friendRequests (h : (y, x) ∈ (step known t c).friendRequests) :
    (y, x) ∈ t.friendRequests ∨ ∃ uid adder, c = (uid, .requestAddingFriend adder y) ∧
      x = adderOf uid adder ∧ Enters known y x := by
  obtain ⟨uid, call⟩ := c
  cases call with
  | requestAddingFriend adder addee =>
    simp only [step, handle] at h
    split at h
    · exact Or.inl h
    · cases hadd : addRequest known t addee (adderOf uid adder) with
      | none => exact Or.inl (by simpa [hadd] using h)
      | some t' =>
        rw [hadd, Option.getD_some] at h
        rcases addRequest_cases hadd with rfl | ⟨hne, htarget, hfro, hkt, hkf, rfl⟩
        · exact Or.inl h
        · rcases mem_insertNew.mp h with h | h
          · exact Or.inl h
          · obtain ⟨rfl, rfl⟩ := Prod.mk.inj h
            exact Or.inr ⟨uid, adder, rfl, rfl, htarget, hfro, hne, hkt, hkf⟩
  | confirmFriendRequest adder =>
    simp only [step, handle] at h
    split at h
    · exact Or.inl h
    · cases hadd : addFriendship known t uid adder with
      | none => exact Or.inl (by simpa [hadd] using h)
      | some t' =>
        rw [hadd, Option.getD_some] at h
        rcases addFriendship_cases hadd with rfl | ⟨-, -, -, -, -, -, hrequests⟩
        · exact Or.inl h
        · exact Or.inl ((hrequests _).mp h).1
  | declineFriendRequest adder => exact Or.inl (mem_removeRequest.mp h).1
  | removeFriend removee =>
    simp only [step, handle, Option.getD_some] at h
    split at h
    · exact Or.inl h
    · exact Or.inl (removeFriendship_friendRequests ▸ h)

theorem step_friendships (hz : ∀ row ∈ t.friendships, row.1 ≠ 0 ∧ row.2 ≠ 0)
    (h : (a, b) ∈ (step known t c).friendships) :
    (a, b) ∈ t.friendships ∧ ¬Removes a b c ∨
      ∃ uid adder, c = (uid, .confirmFriendRequest adder) ∧ Enters known uid adder ∧
        ((a, b) = (uid, adder) ∨ (a, b) = (adder, uid)) := by
  obtain ⟨uid, call⟩ := c
  cases call with
  | requestAddingFriend adder addee =>
    refine Or.inl ⟨?_, by simp [Removes]⟩
    simp only [step, handle] at h
    split at h
    · exact h
    · cases hadd : addRequest known t addee (adderOf uid adder) with
      | none => simpa [hadd] using h
      | some t' =>
        rw [hadd, Option.getD_some] at h
        rcases addRequest_cases hadd with rfl | ⟨-, -, -, -, -, rfl⟩
        · exact h
        · exact h
  | confirmFriendRequest adder =>
    have hkeep : ¬Removes a b (uid, .confirmFriendRequest adder) := by simp [Removes]
    simp only [step, handle] at h
    split at h
    · exact Or.inl ⟨h, hkeep⟩
    · cases hadd : addFriendship known t uid adder with
      | none => exact Or.inl ⟨by simpa [hadd] using h, hkeep⟩
      | some t' =>
        rw [hadd, Option.getD_some] at h
        rcases addFriendship_cases hadd with rfl | ⟨hne, hu, ha, hku, hka, hrows, -⟩
        · exact Or.inl ⟨h, hkeep⟩
        · rcases (hrows _).mp h with h | h
          · exact Or.inl ⟨h, hkeep⟩
          · exact Or.inr ⟨uid, adder, rfl, ⟨hu, ha, hne, hku, hka⟩, h⟩
  | declineFriendRequest adder =>
    exact Or.inl ⟨removeRequest_friendships ▸ h, by simp [Removes]⟩
  | removeFriend removee =>
    simp only [step, handle, Option.getD_some] at h
    split at h
    · rename_i hzero
      refine Or.inl ⟨h, fun hr => ?_⟩
      have hab := hz _ h
      rcases hr with hr | hr
      · exact hab.2 (by simpa [hzero] using (Prod.mk.inj hr).2.symm)
      · exact hab.1 (by simpa [hzero] using (Prod.mk.inj hr).2.symm)
    · obtain ⟨hrow, hother⟩ := mem_removeFriendship.mp h
      refine Or.inl ⟨hrow, fun hr => ?_⟩
      have hab := hz _ hrow
      rcases hr with hr | hr <;> simp only [Prod.mk.injEq, Call.removeFriend.injEq] at hr <;>
        obtain ⟨rfl, rfl⟩ := hr
      · rcases hother with h0 | h0 | h0
        · exact hab.1 h0
        · exact hab.2 h0
        · exact h0.1 rfl
      · rcases hother with h0 | h0 | h0
        · exact hab.2 h0
        · exact hab.1 h0
        · exact h0.2 rfl

theorem run_rows (calls : List Signed) :
    ∀ row ∈ (run known calls).friendships, row.1 ≠ 0 ∧ row.2 ≠ 0 := by
  induction calls using List.reverseRecOn with
  | nil => exact nofun
  | append_singleton calls c ih =>
    rintro ⟨a, b⟩ hrow
    rw [run_snoc] at hrow
    rcases step_friendships ih hrow with ⟨h, -⟩ | ⟨uid, adder, -, henters, h | h⟩
    · exact ih _ h
    · obtain ⟨rfl, rfl⟩ := Prod.mk.inj h
      exact ⟨henters.1, henters.2.1⟩
    · obtain ⟨rfl, rfl⟩ := Prod.mk.inj h
      exact ⟨henters.2.1, henters.1⟩

theorem friendRequests_asked (h : AllBacked known calls)
    (hrow : (y, x) ∈ (run known calls).friendRequests) : Asked known calls x y := by
  induction calls using List.reverseRecOn generalizing x y with
  | nil => cases hrow
  | append_singleton calls c ih =>
    obtain ⟨hcalls, hc⟩ := h.init
    have hstep := hrow
    rw [run_snoc] at hstep
    rcases step_friendRequests hstep with hold | ⟨uid, adder, rfl, rfl, henters⟩
    · exact (ih hcalls hold).snoc hrow
    · rcases hc henters with hown | hpending
      · rw [hown] at hrow ⊢
        exact asked_now hrow
      · exact (ih hcalls hpending).snoc hrow

-- Two accounts are friends only after a request of one and the confirmation of the other.
theorem friendship_agreed (known : Nat → Bool) (calls : List Signed) (h : AllBacked known calls)
    {a b : Nat} (hab : (a, b) ∈ (run known calls).friendships) :
    Agreed known calls a b ∨ Agreed known calls b a := by
  induction calls using List.reverseRecOn generalizing a b with
  | nil => cases hab
  | append_singleton calls c ih =>
    obtain ⟨hcalls, hc⟩ := h.init
    rw [run_snoc] at hab
    rcases step_friendships (run_rows calls) hab with ⟨hold, hkept⟩ | ⟨uid, adder, rfl, henters, hrow⟩
    · exact (ih hcalls hold).imp (·.snoc hkept) (·.snoc fun hr => hkept hr.symm)
    · have hconfirm : ¬Removes a b (uid, .confirmFriendRequest adder) := by simp [Removes]
      rcases hc henters with hpending | ⟨hforth, hback⟩
      · have hasked := friendRequests_asked hcalls hpending
        rcases hrow with hrow | hrow
        · obtain ⟨rfl, rfl⟩ := Prod.mk.inj hrow
          exact Or.inr (agreed_now hasked)
        · obtain ⟨rfl, rfl⟩ := Prod.mk.inj hrow
          exact Or.inl (agreed_now hasked)
      · have hold : (a, b) ∈ (run known calls).friendships := by
          rcases hrow with hrow | hrow
          · exact hrow ▸ hforth
          · exact hrow ▸ hback
        exact (ih hcalls hold).imp (·.snoc hconfirm) (·.snoc fun hr => hconfirm hr.symm)

def twoAccounts (uid : Nat) : Bool :=
  uid == 1 || uid == 2

def courtship : List Signed :=
  [(1, .requestAddingFriend 0 2), (2, .confirmFriendRequest 1)]

theorem friendship_agreed_of_courtship :
    Agreed twoAccounts courtship 2 1 ∨ Agreed twoAccounts courtship 1 2 :=
  friendship_agreed twoAccounts courtship
    ((allBacked_nil.snoc (c := (1, .requestAddingFriend 0 2)) (by decide)).snoc (by decide))
    (by decide)

theorem not_asked_nil : ¬Asked known [] x y := by
  rintro ⟨before, adder, after, h, -⟩
  exact absurd h (by simp)

-- A confirmation alone is enough: nobody has asked.
theorem confirmed_unasked :
    (1, 2) ∈ (run twoAccounts [(2, .confirmFriendRequest 1)]).friendships ∧
      ¬(Agreed twoAccounts [(2, .confirmFriendRequest 1)] 1 2 ∨
        Agreed twoAccounts [(2, .confirmFriendRequest 1)] 2 1) := by
  refine ⟨by decide, ?_⟩
  rintro (⟨before, after, h, hasked, -⟩ | ⟨before, after, h, hasked, -⟩)
  · cases before with
    | nil => exact not_asked_nil hasked
    | cons d ds => exact absurd h (by simp)
  · cases before with
    | nil => exact not_asked_nil hasked
    | cons d ds => exact absurd h (by simp)

end Friends
