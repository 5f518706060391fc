import Madoka.Account.Updates

namespace Account

structure Skill where
  skillId : Nat
  slotId : Nat
  deriving DecidableEq, Repr

-- An entry of profile.profiles.
structure Profile where
  avatarId : Nat
  clothes : List Nat
  equipedSkills : List Skill
  isSelected : Bool
  skinColor : Nat
  unlockedLevel : Nat
  deriving DecidableEq, Repr

structure Emote where
  slotId : Nat
  emoteId : Nat
  deriving DecidableEq, Repr

structure SelectedItems where
  avatarId : Nat
  skinColor : Nat
  clothes : List Nat
  bannerId : Nat
  headPic : Nat
  loadouts : List Nat
  slots : List Nat
  shows : List Nat
  emotes : List Emote
  deriving DecidableEq, Repr

-- The part of the player document that the avatar endpoints read and write.
structure Wardrobe where
  profiles : List Profile
  selectedItems : SelectedItems
  deriving DecidableEq, Repr

inductive Request where
  | selectProfile (avatarId : Option Nat)
  | changeClothes (avatarId : Option Nat) (clothes : List Nat) (skinColor : Option Nat)
  | equipSkill (avatarId skillId slotId : Option Nat)
  | chooseSlots (slots : List Nat)
  | chooseShow (shows : List Nat)
  | chooseEmote (slotId emoteId : Nat)
  | chooseBanner (bannerId : Option Nat)
  | chooseHeadPic (headPic : Option Nat)
  | chooseLoadout (loadouts : List Nat)
  | getBackpack
  | getProfiles
  | unlockProfile
  deriving DecidableEq, Repr

inductive Response where
  | empty
  | profile (p : Profile)
  | profiles (l : List Profile)
  | items (s : SelectedItems)
  | backpack (s : SelectedItems)
  deriving DecidableEq, Repr

def BLOCKED_AVATARS : List Nat := [102000008]

def SelectedItems.wear (s : SelectedItems) (p : Profile) : SelectedItems :=
  { s with avatarId := p.avatarId, skinColor := p.skinColor, clothes := p.clothes }

-- ChooseSlots and ChooseShow leave the nested fields out of their answers.
def SelectedItems.scalars (s : SelectedItems) : SelectedItems := { s with loadouts := [], emotes := [] }

-- unlocked_level || 1
def Profile.shown (p : Profile) : Profile :=
  { p with unlockedLevel := if p.unlockedLevel = 0 then 1 else p.unlockedLevel }

def Profile.select (avatarId : Option Nat) (p : Profile) : Profile :=
  { p with isSelected := decide (some p.avatarId = avatarId) }

def Profile.dress (clothes : List Nat) (skinColor : Option Nat) (p : Profile) : Profile :=
  { p with
    clothes := if clothes = [] then p.clothes else clothes
    skinColor := skinColor.getD p.skinColor }

def Profile.equip (skillId slotId : Nat) (p : Profile) : Profile :=
  { p with
    equipedSkills :=
      if p.equipedSkills.any fun s => s.slotId == slotId then
        p.equipedSkills.replaceF fun s => if s.slotId = slotId then some ⟨skillId, slotId⟩ else none
      else p.equipedSkills ++ [⟨skillId, slotId⟩] }

def Profile.flag (p : Profile) : Profile := { p with isSelected := true }

def Profile.firstSkill (p : Profile) : Nat := (p.equipedSkills.head?.map Skill.skillId).getD 0

def Profile.listed (p : Profile) : Bool :=
  !BLOCKED_AVATARS.contains p.avatarId && !BLOCKED_AVATARS.contains p.firstSkill

namespace Wardrobe

variable (w : Wardrobe)

-- The body of a handler: what it answers, and the document when it calls savePlayer.
abbrev Outcome := Response × Option Wardrobe

def selectedProfile : Option Profile := (w.profiles.find? Profile.isSelected).or w.profiles.head?

def syncSelectedItemsFromProfile (p : Profile) : Wardrobe :=
  let slots := if w.selectedItems.slots = [] then List.replicate 16 0 else w.selectedItems.slots
  { w with
    selectedItems :=
      { w.selectedItems.wear p with
        slots := p.equipedSkills.foldl (fun l s => l.set s.slotId s.skillId) slots } }

def handleSelectProfile (avatarId : Option Nat) : Outcome :=
  let flagged := w.profiles.map (Profile.select avatarId)
  match flagged.reverse.find? Profile.isSelected with
  | none => (.empty, none)
  | some p => (.profile p.shown, some ({ w with profiles := flagged }.syncSelectedItemsFromProfile p))

-- The profile of an avatar, the first one of it.
def change (avatarId : Nat) (f : Profile → Profile) : Wardrobe :=
  { w with profiles := w.profiles.replaceF fun p => if p.avatarId = avatarId then some (f p) else none }

def handleChangeClothes (avatarId : Option Nat) (clothes : List Nat) (skinColor : Option Nat) : Outcome :=
  let avatarId :=
    match avatarId.filter (· ≠ 0) with
    | some a => some a
    | none => ((w.profiles.find? Profile.isSelected).map Profile.avatarId).or avatarId
  match w.profiles.find? fun p => some p.avatarId = avatarId with
  | none => (.empty, none)
  | some p =>
    let p' := p.dress clothes skinColor
    let w' := w.change p.avatarId fun _ => p'
    (.profile p', some { w' with
      selectedItems := if p'.isSelected then w.selectedItems.wear p' else w.selectedItems })

def handleEquipSkill (avatarId skillId slotId : Option Nat) : Outcome :=
  match avatarId, skillId with
  | some avatarId, some skillId =>
    if w.profiles.any fun p => p.avatarId == avatarId then
      let w' := w.change avatarId (Profile.equip skillId (slotId.getD 0))
      (.profiles w'.profiles, some w')
    else (.profiles w.profiles, none)
  | _, _ => (.profiles w.profiles, none)

def onItems (f : SelectedItems → SelectedItems) : Wardrobe := { w with selectedItems := f w.selectedItems }

def handleChooseSlots (slots : List Nat) : Outcome :=
  let w' := w.onItems fun s => { s with slots := slots }
  (.items w'.selectedItems.scalars, some w')

def handleChooseShow (shows : List Nat) : Outcome :=
  let w' := w.onItems fun s => { s with shows := shows }
  (.items w'.selectedItems.scalars, some w')

def choose (slotId emoteId : Nat) (l : List Emote) : List Emote :=
  if l.any fun e => e.slotId == slotId then
    l.replaceF fun e => if e.slotId = slotId then some ⟨slotId, emoteId⟩ else none
  else l ++ [⟨slotId, emoteId⟩]

def handleChooseEmote (slotId emoteId : Nat) : Outcome :=
  let w' := w.onItems fun s => { s with emotes := choose slotId emoteId s.emotes }
  (.items w'.selectedItems, some w')

-- ChooseBanner, ChooseHeadPic and ChooseLoadout write nothing when their field is missing.
def chooseIf {α : Type} (x : Option α) (f : α → SelectedItems → SelectedItems) : Outcome :=
  match x with
  | none => (.items w.selectedItems, none)
  | some a => (.items (w.onItems (f a)).selectedItems, some (w.onItems (f a)))

def handleChooseBanner (bannerId : Option Nat) : Outcome :=
  w.chooseIf bannerId fun b s => { s with bannerId := b }

def handleChooseHeadPic (headPic : Option Nat) : Outcome :=
  w.chooseIf headPic fun h s => { s with headPic := h }

def handleChooseLoadout (loadouts : List Nat) : Outcome :=
  w.chooseIf (if loadouts = [] then none else some loadouts) fun l s => { s with loadouts := l }

def handleGetBackpack : Outcome :=
  match w.selectedProfile with
  | none => (.backpack w.selectedItems, none)
  | some p =>
    let w' := w.onItems fun s => s.wear p
    (.backpack w'.selectedItems, some w')

-- The first listed profile is flagged when no listed one is.
def handleGetProfiles : Outcome :=
  let filtered := w.profiles.filter Profile.listed
  if filtered ≠ [] ∧ filtered.all fun p => !p.isSelected then
    let w' := { w with profiles := w.profiles.replaceF fun p =>
      if p.listed then some p.flag else none }
    (.profiles (w'.profiles.filter Profile.listed), some w')
  else (.profiles filtered, none)

def handleUnlockProfile : Outcome :=
  match w.selectedProfile with
  | none => (.profiles [], none)
  | some p => (.profiles [p.shown], none)

def handle : Request → Outcome
  | .selectProfile avatarId => w.handleSelectProfile avatarId
  | .changeClothes avatarId clothes skinColor => w.handleChangeClothes avatarId clothes skinColor
  | .equipSkill avatarId skillId slotId => w.handleEquipSkill avatarId skillId slotId
  | .chooseSlots slots => w.handleChooseSlots slots
  | .chooseShow shows => w.handleChooseShow shows
  | .chooseEmote slotId emoteId => w.handleChooseEmote slotId emoteId
  | .chooseBanner bannerId => w.handleChooseBanner bannerId
  | .chooseHeadPic headPic => w.handleChooseHeadPic headPic
  | .chooseLoadout loadouts => w.handleChooseLoadout loadouts
  | .getBackpack => w.handleGetBackpack
  | .getProfiles => w.handleGetProfiles
  | .unlockProfile => w.handleUnlockProfile

-- An avatar of DEFAULT_PLAYER in the clothes that most of them have.
def plain (avatarId skillId : Nat) : Profile :=
  ⟨avatarId, [203000000, 204000000, 200000000, 200000000], [⟨skillId, 0⟩], false, 5, 1⟩

def defaultProfiles : List Profile :=
  [⟨102000004, [203000001, 211000000, 204000001, 205000001], [⟨102000004, 0⟩], true, 5, 1⟩,
    ⟨101000001, [203000166], [⟨101000001, 0⟩], false, 38, 1⟩,
    plain 102000005 406, plain 101000005 106, plain 102000006 306, plain 101000006 206,
    plain 102000007 706, ⟨101000007, [203000092], [⟨506, 0⟩], false, 5, 1⟩, plain 102000008 806,
    plain 101000008 906, plain 102000009 1006, plain 101000009 1106, plain 102000010 1306,
    plain 101000010 1106, plain 102000011 1206, plain 101000011 1406, plain 102000012 1506,
    plain 101000012 1706, plain 102000013 1806, plain 101000013 1906, plain 102000014 2006,
    plain 101000014 2106, plain 102000015 2206, plain 101000015 2506, plain 102000016 2306,
    plain 101000016 2406, plain 102000017 2706, plain 101000017 2606, plain 102000018 2906,
    plain 101000018 2806, plain 102000019 3006, plain 101000019 3106, plain 102000020 3206,
    plain 101000020 3506, plain 102000021 3306, plain 101000021 3906, plain 102000022 3406,
    plain 101000022 4406, plain 102000023 3606, plain 101000023 4806, plain 102000024 3806,
    plain 102000025 4006, plain 102000026 4106, plain 102000027 4206, plain 102000028 4306,
    plain 102000029 4506, plain 102000030 4606, plain 102000031 4706, plain 102000032 4906,
    plain 102000033 5006, plain 102000034 5206]

-- DEFAULT_PLAYER
def initial : Wardrobe where
  profiles := defaultProfiles
  selectedItems :=
    { avatarId := 102000004
      skinColor := 5
      clothes := [203000001, 211000000, 204000001, 205000001]
      bannerId := 900000014
      headPic := 902000003
      loadouts := [102000004, 102000005]
      slots := [102000004, 1, 2, 3, 907000010, 0, 0, 0, 0, 0, 0, 0, 0, 0, 0]
      shows := []
      emotes := [] }

-- A document without the part reads as one without profiles.
def bare : Wardrobe := ⟨[], ⟨0, 0, [], 0, 0, [], [], [], []⟩⟩

-- An endpoint as the router runs it over the player's document.
def endpoint (req : Request) : Handler Wardrobe where
  run := fun d => ((d.rest.getD bare).handle req).2.map fun w => { d with rest := some w }
  keeps := fun d d' h => by
    obtain ⟨w, -, rfl⟩ := Option.map_eq_some_iff.mp h
    rfl

end Wardrobe

end Account
