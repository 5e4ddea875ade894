import Mum.Library.JoinedNames
import Mum.Library.TwoStages
import Mum.State.ChannelTree
import Mum.State.Server

/-!
# Channel identifiers

An identifier names a channel if exactly one path ends with it.  The paths are the
names on the walks, joined by slashes (`path_of_leads`), so in a tree whose names have
no slash the ends of paths can be read off the names: the path of a channel is the end
of another path only below a channel whose name ends with that of the root
(`endsWith_path_iff`).

A longer identifier for the same channel names it as well.  The argument does not look
at the tree: the tests of `channelName` for the longer identifier let nothing pass that
those for the shorter one did not (`Selects.narrow`).

For full paths, `exists_shadowed_iff` says in terms of the walks when another path ends the
same way, and `channelName_eq_ok_iff` what that means for the lookup.
-/

namespace Mum

open Library Library.Eval Library.ParentChain Msgs
open scoped List

/-! ### Paths -/

namespace Channels

def nameOf (channels : Channels) (id : UInt32) : String :=
  ((channels.lookup id).map Channel.name).getD ""

variable {channels : Channels} {id r : UInt32} {walk : List UInt32} {channel : Channel}

theorem nameOf_eq (hchannel : channels.lookup id = some channel) :
    channels.nameOf id = channel.name := by
  rw [nameOf, hchannel]
  rfl

theorem pathWithin_of_leads {fuel : ℕ} (hleads : Leads channels.parentOf id walk r)
    (hchannel : channels.lookup id = some channel) (hfuel : walk.length < fuel) :
    Channel.pathWithin channels fuel channel =
      .ok ("/".intercalate ((r :: walk).map channels.nameOf)) := by
  induction hleads generalizing fuel channel with
  | @top r hr =>
      obtain ⟨channel', hchannel', hparent⟩ := parentOf_eq_some.mp hr
      cases hchannel.symm.trans hchannel'
      obtain ⟨fuel, rfl⟩ := Nat.exists_eq_succ_of_ne_zero (Nat.ne_zero_of_lt hfuel)
      rw [Channel.pathWithin, hparent, List.map_cons, List.map_nil,
        String.intercalate_singleton, nameOf_eq hchannel]
  | @up k p r walk hk hp ih =>
      obtain ⟨channel', hchannel', hparent⟩ := parentOf_eq_some.mp hk
      cases hchannel.symm.trans hchannel'
      obtain ⟨fuel, rfl⟩ := Nat.exists_eq_succ_of_ne_zero (Nat.ne_zero_of_lt hfuel)
      rw [List.length_append, List.length_singleton] at hfuel
      obtain ⟨grand, hgrand⟩ := Option.isSome_iff_exists.mp hp.parent_isSome
      obtain ⟨above, habove, -⟩ := parentOf_eq_some.mp hgrand
      have hname := ih habove (show walk.length < fuel by omega)
      rw [← List.cons_append, List.map_append,
        String.intercalate_append_of_ne_nil (by simp) (by simp), List.map_singleton,
        String.intercalate_singleton, nameOf_eq hchannel, Channel.pathWithin, hparent]
      simp only [habove, unwrap_some, ok_bind, hname]

theorem mem_of_leads (hleads : Leads channels.parentOf id walk r) {a : UInt32}
    (ha : a ∈ r :: walk) : a ∈ channels := by
  rcases List.mem_cons.mp ha with rfl | ha
  · exact parentOf_isSome.mp (by rw [hleads.parent_top]; rfl)
  · obtain ⟨above, below, rfl⟩ := List.append_of_mem ha
    exact parentOf_isSome.mp hleads.of_prefix.parent_isSome

/-- A path is made of the names on the walk. -/
theorem path_of_leads (hleads : Leads channels.parentOf id walk r)
    (hchannel : channels.lookup id = some channel) :
    channel.path channels = .ok ("/".intercalate ((r :: walk).map channels.nameOf)) := by
  have hlen := hleads.length_lt fun _ => mem_keys_of_parentOf_isSome
  exact pathWithin_of_leads hleads hchannel (by omega)

end Channels

/-! ### What an identifier names -/

/-- The entry is a channel whose path, spelled by `spell`, ends with `suffix`. -/
def Channels.Ends (channels : Channels) (spell : String → String) (suffix : String)
    (entry : UInt32 × Channel) : Prop :=
  entry ∈ channels.iter ∧
    ∃ path, entry.2.path channels = .ok path ∧ endsWith (spell path) suffix = true

namespace ConnectedServer

variable {server : ConnectedServer} {spell toLowercase : String → String} {name suffix : String}
  {found : List (UInt32 × Channel)} {entry : UInt32 × Channel}

theorem mem_channelsEndingWith (hfound : server.channelsEndingWith spell suffix = .ok found) :
    entry ∈ found ↔ server.channels.Ends spell suffix entry := by
  obtain ⟨paths, hpaths, heq⟩ := bind_eq_ok.mp hfound
  cases heq
  simp only [List.mem_map, List.mem_filter, mem_of_mapM_eq_ok hpaths, Channels.Ends]
  constructor
  · rintro ⟨spelled, ⟨⟨entry', hentry, hspelled⟩, hends⟩, rfl⟩
    obtain ⟨path, hpath, heq⟩ := bind_eq_ok.mp hspelled
    cases heq
    exact ⟨hentry, path, hpath, hends⟩
  · rintro ⟨hentry, path, hpath, hends⟩
    exact ⟨(entry, spell path), ⟨⟨entry, hentry, by rw [hpath]; rfl⟩, hends⟩, rfl⟩

theorem nodup_channelsEndingWith
    (hfound : server.channelsEndingWith spell suffix = .ok found) : found.Nodup := by
  obtain ⟨paths, hpaths, heq⟩ := bind_eq_ok.mp hfound
  cases heq
  have hentries : paths.map Prod.fst = server.channels.iter.map id := by
    refine map_eq_of_mapM_eq_ok ?_ hpaths
    intro entry spelled hspelled
    obtain ⟨path, -, heq⟩ := bind_eq_ok.mp hspelled
    cases heq
    rfl
  rw [List.map_id] at hentries
  have hsub : (paths.filter fun path => endsWith path.2 suffix).map Prod.fst <+
      server.channels.iter := hentries ▸ List.filter_sublist.map Prod.fst
  exact hsub.nodup (HashMap.nodup_iter server.channels)

section PathsReturn

variable (hpath : ∀ id channel, server.channels.lookup id = some channel →
  Returns (channel.path server.channels))

include hpath

/-- A channel is found by its name when all paths exist. -/
theorem channelsEndingWith_returns (spell : String → String) (suffix : String) :
    Returns (server.channelsEndingWith spell suffix) := by
  have hpaths : Returns (server.channels.iter.mapM fun entry => do
      let path ← entry.2.path server.channels
      return (entry, spell path)) := by
    refine mapM_returns_iff.mpr fun entry hentry => ?_
    obtain ⟨path, hpath⟩ := hpath entry.1 entry.2 (HashMap.mem_iter.mp hentry)
    exact ⟨(entry, spell path), by rw [hpath, ok_bind]; rfl⟩
  obtain ⟨paths, hpaths⟩ := hpaths
  exact ⟨_, by rw [channelsEndingWith, hpaths, ok_bind]; rfl⟩

theorem channelName_returns (toLowercase : String → String) (name : String) :
    Returns (server.channelName toLowercase name) := by
  obtain ⟨found, hfound⟩ := channelsEndingWith_returns hpath id name
  obtain ⟨soft, hsoft⟩ := channelsEndingWith_returns hpath toLowercase (toLowercase name)
  rw [channelName, hfound, ok_bind]
  match found with
  | [] =>
      rw [hsoft, ok_bind]
      match soft with
      | [] => exact ⟨_, rfl⟩
      | [_] => exact ⟨_, rfl⟩
      | _ :: _ :: _ => exact ⟨_, rfl⟩
  | [_] => exact ⟨_, rfl⟩
  | _ :: _ :: _ => exact ⟨_, rfl⟩

omit hpath in
/-- All paths are spelled out for any name. -/
theorem channelName_returns_iff :
    Returns (server.channelName toLowercase name) ↔
      ∀ id channel, server.channels.lookup id = some channel →
        Returns (channel.path server.channels) := by
  constructor
  · rintro ⟨result, hresult⟩ id channel hchannel
    obtain ⟨found, hfound, -⟩ := bind_eq_ok.mp hresult
    obtain ⟨paths, hpaths, -⟩ := bind_eq_ok.mp hfound
    obtain ⟨spelled, hspelled⟩ :=
      mapM_returns_iff.mp ⟨paths, hpaths⟩ (id, channel) (HashMap.mem_iter.mpr hchannel)
    obtain ⟨path, hpath, -⟩ := bind_eq_ok.mp hspelled
    exact ⟨path, hpath⟩
  · exact fun hpath => channelName_returns hpath toLowercase name

theorem channelName_eq_ok_iff :
    server.channelName toLowercase name = .ok (.ok entry) ↔
      Selects (server.channels.Ends id name)
        (server.channels.Ends toLowercase (toLowercase name)) entry := by
  obtain ⟨found, hfound⟩ := channelsEndingWith_returns hpath id name
  obtain ⟨soft, hsoft⟩ := channelsEndingWith_returns hpath toLowercase (toLowercase name)
  have hone : found = [entry] ↔ Only (server.channels.Ends id name) entry :=
    eq_singleton_iff_of_mem (nodup_channelsEndingWith hfound)
      fun _ => mem_channelsEndingWith hfound
  have hnone : found = [] ↔ ∀ other, ¬ server.channels.Ends id name other :=
    eq_nil_iff_of_mem fun _ => mem_channelsEndingWith hfound
  have hsoftOne : soft = [entry] ↔
      Only (server.channels.Ends toLowercase (toLowercase name)) entry :=
    eq_singleton_iff_of_mem (nodup_channelsEndingWith hsoft)
      fun _ => mem_channelsEndingWith hsoft
  rw [Selects, ← hone, ← hnone, ← hsoftOne, channelName, hfound, ok_bind]
  match found with
  | [] =>
      rw [hsoft, ok_bind]
      match soft with
      | [] => simp [pure, Except.pure]
      | [_] => simp [pure, Except.pure]
      | _ :: _ :: _ => simp [pure, Except.pure]
  | [_] => simp [pure, Except.pure]
  | _ :: _ :: _ => simp [pure, Except.pure]

theorem channelName_eq_ambiguous {entry' : UInt32 × Channel}
    (hends : server.channels.Ends id name entry) (hends' : server.channels.Ends id name entry')
    (hne : entry ≠ entry') :
    server.channelName toLowercase name = .ok (.error .ambiguous) := by
  obtain ⟨found, hfound⟩ := channelsEndingWith_returns hpath id name
  obtain ⟨first, second, rest, rfl⟩ := exists_cons_cons_of_mem
    ((mem_channelsEndingWith hfound).mpr hends) ((mem_channelsEndingWith hfound).mpr hends') hne
  rw [channelName, hfound, ok_bind]
  rfl

end PathsReturn

end ConnectedServer

/-! ### Full paths -/

theorem endsWith_iff {s suffix : String} : endsWith s suffix = true ↔ suffix.toList <:+ s.toList :=
  List.isSuffixOf_iff_suffix

namespace Channels

/-- No two channels below one parent have the same name. -/
def DistinctSiblings (channels : Channels) : Prop :=
  ∀ id id' parent, channels.parentOf id = some (some parent) →
    channels.parentOf id' = some (some parent) →
      channels.nameOf id = channels.nameOf id' → id = id'

def NoSlash (channels : Channels) : Prop :=
  ∀ id ∈ channels, '/' ∉ (channels.nameOf id).toList

/-- Below a channel whose name ends with that of the root there are the same names
again that lead from the root to `id`. -/
def Shadowed (channels : Channels) (id : UInt32) : Prop :=
  ∃ walk other above top below, Leads channels.parentOf id walk 0 ∧
    Leads channels.parentOf other (above ++ top :: below) 0 ∧
      endsWith (channels.nameOf top) (channels.nameOf 0) ∧
        below.map channels.nameOf = walk.map channels.nameOf

variable {channels : Channels} {id id' : UInt32} {walk walk' : List UInt32}

theorem distinctSiblings_of_nodup (h : (channels.keys.map channels.nameOf).Nodup) :
    channels.DistinctSiblings :=
  fun _ _ _ hid hid' => List.inj_on_of_nodup_map h
    (mem_keys_of_parentOf_isSome (Option.isSome_of_mem hid))
    (mem_keys_of_parentOf_isSome (Option.isSome_of_mem hid'))

theorem noSlash_of_names (h : ∀ name ∈ channels.keys.map channels.nameOf, '/' ∉ name.toList) :
    channels.NoSlash :=
  fun _ hid => h _ (List.mem_map_of_mem (AList.mem_keys.mp hid))

/-- In a tree with distinct siblings, the names lead to one channel only. -/
theorem DistinctSiblings.key_eq (hsiblings : channels.DistinctSiblings)
    (hwalk : Leads channels.parentOf id walk 0) (hwalk' : Leads channels.parentOf id' walk' 0)
    (hnames : walk.map channels.nameOf = walk'.map channels.nameOf) : id = id' := by
  generalize hr : (0 : UInt32) = r at hwalk
  induction hwalk generalizing id' walk' with
  | top hroot =>
      subst hr
      have hnil : walk' = [] := List.map_eq_nil_iff.mp hnames.symm
      rw [hnil] at hwalk'
      exact hwalk'.eq_top.symm
  | @up k p r walk hk hp ih =>
      cases hwalk' with
      | top hroot => simp at hnames
      | @up _ p' _ walk' hk' hp' =>
          rw [List.map_append, List.map_append, List.map_singleton, List.map_singleton] at hnames
          obtain ⟨habove, hlast⟩ := List.append_inj' hnames rfl
          have hparent : p = p' := ih hp' habove hr
          rw [← hparent] at hk'
          exact hsiblings k id' p hk hk' (List.cons.inj hlast).1

theorem NoSlash.notMem_names (hslash : channels.NoSlash)
    (hwalk : Leads channels.parentOf id walk 0) :
    ∀ name ∈ ((0 :: walk).map channels.nameOf).map String.toList, '/' ∉ name := by
  intro name hname
  rw [List.map_map] at hname
  obtain ⟨a, ha, rfl⟩ := List.mem_map.mp hname
  exact hslash a (mem_of_leads hwalk ha)

/-- A path ends with another one if the names are the same, or come again below a name
that ends with that of the root. -/
theorem endsWith_path_iff (hslash : channels.NoSlash)
    (hwalk : Leads channels.parentOf id walk 0) (hwalk' : Leads channels.parentOf id' walk' 0) :
    endsWith ("/".intercalate ((0 :: walk').map channels.nameOf))
        ("/".intercalate ((0 :: walk).map channels.nameOf)) = true ↔
      walk'.map channels.nameOf = walk.map channels.nameOf ∨
        ∃ above top below, walk' = above ++ top :: below ∧
          endsWith (channels.nameOf top) (channels.nameOf 0) ∧
            below.map channels.nameOf = walk.map channels.nameOf := by
  have hinj : Function.Injective (List.map String.toList) :=
    List.map_injective_iff.mpr fun s s' h => String.toList_inj.mp h
  have hsep : ("/" : String).toList = ['/'] := rfl
  rw [endsWith_iff, String.toList_intercalate, String.toList_intercalate, hsep]
  refine (intercalate_isSuffix_iff (hslash.notMem_names hwalk) (hslash.notMem_names hwalk')
    (by simp)).trans ?_
  constructor
  · rintro ⟨above, name, hsplit, hends⟩
    cases above with
    | nil => exact Or.inl (hinj (List.cons.inj hsplit).2)
    | cons first above =>
        -- the first of the names above is that of the root
        have hnames := (List.cons.inj hsplit).2
        rw [List.map_map] at hnames
        obtain ⟨above, rest, rfl, -, hrest⟩ := List.map_eq_append_iff.mp hnames
        obtain ⟨top, below, rfl, rfl, hbelow⟩ := List.map_eq_cons_iff.mp hrest
        rw [← List.map_map] at hbelow
        exact Or.inr ⟨above, top, below, rfl, endsWith_iff.mpr hends, hinj hbelow⟩
  · rintro (hnames | ⟨above, top, below, rfl, hends, hbelow⟩)
    · refine ⟨[], (channels.nameOf 0).toList, ?_, List.suffix_refl _⟩
      rw [List.map_cons, hnames]
      rfl
    · refine ⟨((0 :: above).map channels.nameOf).map String.toList,
        (channels.nameOf top).toList, ?_, endsWith_iff.mp hends⟩
      rw [← hbelow]
      simp

theorem IsTree.path_returns (htree : channels.IsTree) (id : UInt32) (channel : Channel)
    (hchannel : channels.lookup id = some channel) : Returns (channel.path channels) := by
  obtain ⟨walk, hwalk⟩ := htree.leads id (HashMap.mem_iff_lookup.mpr ⟨channel, hchannel⟩)
  exact (path_returns_iff hchannel).mpr ⟨walk, 0, hwalk⟩

/-- A shadowed channel is not the channel that shadows it. -/
theorem ne_of_shadows {above below : List UInt32} {top : UInt32}
    (hwalk : Leads channels.parentOf id walk 0)
    (hwalk' : Leads channels.parentOf id' (above ++ top :: below) 0)
    (hbelow : below.map channels.nameOf = walk.map channels.nameOf) : id ≠ id' := by
  rintro rfl
  obtain ⟨hsame, -⟩ := hwalk.unique hwalk'
  have hlen := congrArg List.length hsame
  have hlen' := congrArg List.length hbelow
  rw [List.length_append, List.length_cons] at hlen
  rw [List.length_map, List.length_map] at hlen'
  omega

end Channels

/-- Every channel can be named by its path exactly if no channel below the root has a name
that ends with that of the root. -/
theorem Channels.exists_shadowed_iff {channels : Channels} (htree : channels.IsTree) :
    (∃ id ∈ channels, channels.Shadowed id) ↔
      ∃ top ∈ channels, top ≠ 0 ∧ endsWith (channels.nameOf top) (channels.nameOf 0) = true := by
  constructor
  · rintro ⟨id, -, walk, other, above, top, below, -, hother, htop, -⟩
    have hmem : top ∈ above ++ top :: below := by simp
    refine ⟨top, mem_of_leads hother (List.mem_cons_of_mem _ hmem), ?_, htop⟩
    rintro rfl
    exact hother.top_notMem hmem
  · rintro ⟨top, hmem, hne, htop⟩
    obtain ⟨walk, hwalk⟩ := htree.leads top hmem
    -- the root itself is shadowed
    refine ⟨0, parentOf_isSome.mp (by rw [htree.root]; rfl), [], top, ?_⟩
    cases hwalk with
    | top hroot => exact absurd rfl hne
    | @up _ p _ above hk hp =>
        exact ⟨above, top, [], .top htree.root, .up hk hp, htop, rfl⟩

/-- A channel is named by its full path unless it is shadowed, and then no channel is. -/
theorem ConnectedServer.channelName_path (toLowercase : String → String)
    {server : ConnectedServer} (htree : server.channels.IsTree)
    (hsiblings : server.channels.DistinctSiblings) (hslash : server.channels.NoSlash)
    {channelId : UInt32} {channel : Channel} {path : String}
    (hchannel : server.channels.lookup channelId = some channel)
    (hpath : channel.path server.channels = .ok path) :
    (¬ server.channels.Shadowed channelId →
        server.channelName toLowercase path = .ok (.ok (channelId, channel))) ∧
      (server.channels.Shadowed channelId →
        server.channelName toLowercase path = .ok (.error .ambiguous)) := by
  obtain ⟨walk, hwalk⟩ :=
    htree.leads channelId (HashMap.mem_iff_lookup.mpr ⟨channel, hchannel⟩)
  cases hpath.symm.trans (Channels.path_of_leads hwalk hchannel)
  have hself : server.channels.Ends id _ (channelId, channel) :=
    ⟨HashMap.mem_iter.mpr hchannel, _, hpath, endsWith_iff.mpr (List.suffix_refl _)⟩
  constructor
  · intro hshadowed
    refine (channelName_eq_ok_iff htree.path_returns).mpr (Or.inl ⟨hself, ?_⟩)
    rintro ⟨other, channel'⟩ ⟨hother, path, hpath', hends⟩
    rw [HashMap.mem_iter] at hother
    obtain ⟨walk', hwalk'⟩ := htree.leads other (HashMap.mem_iff_lookup.mpr ⟨channel', hother⟩)
    cases hpath'.symm.trans (Channels.path_of_leads hwalk' hother)
    rcases (Channels.endsWith_path_iff hslash hwalk hwalk').mp hends with hnames | hbelow
    · have hsame := hsiblings.key_eq hwalk' hwalk hnames
      subst hsame
      cases hchannel.symm.trans hother
      rfl
    · obtain ⟨above, top, below, rfl, htop, hnames⟩ := hbelow
      exact absurd ⟨walk, other, above, top, below, hwalk, hwalk', htop, hnames⟩ hshadowed
  · rintro ⟨walk', other, above, top, below, hwalk', hother, htop, hnames⟩
    obtain ⟨rfl, -⟩ := hwalk.unique hwalk'
    have hne : channelId ≠ other := Channels.ne_of_shadows hwalk hother hnames
    obtain ⟨parent, hparent⟩ := Option.isSome_iff_exists.mp hother.parent_isSome
    obtain ⟨channel', hchannel', -⟩ := Channels.parentOf_eq_some.mp hparent
    have hends : server.channels.Ends id _ (other, channel') :=
      ⟨HashMap.mem_iter.mpr hchannel', _, Channels.path_of_leads hother hchannel',
        (Channels.endsWith_path_iff hslash hwalk hother).mpr
          (Or.inr ⟨above, top, below, rfl, htop, hnames⟩)⟩
    exact channelName_eq_ambiguous htree.path_returns hself hends
      fun heq => hne (congrArg Prod.fst heq)

/-- A server of which only the channels matter. -/
def serverOf (channels : Channels) : ConnectedServer where
  channels := channels
  users := ∅
  welcomeText := none
  username := "me"
  sessionId := 0
  muted := false
  deafened := false
  host := "localhost"

def asciiLowercase (s : String) : String := String.ofList (s.toList.map Char.toLower)

theorem channelName_path_threeChannels :
    (serverOf threeChannels).channelName asciiLowercase "Root/Lobby/Corner" =
      .ok (.ok (2, ⟨some "quiet", [], 0, "Corner", some 1, 3⟩)) := by
  have hshadowed : ¬ threeChannels.Shadowed 2 := by
    intro h
    obtain ⟨top, htop, hne, hends⟩ :=
      (Channels.exists_shadowed_iff isTree_threeChannels).mp ⟨2, by decide, h⟩
    have hkeys : top ∈ [2, 1, 0] := AList.mem_keys.mp htop
    simp only [List.mem_cons, List.not_mem_nil, or_false] at hkeys
    rcases hkeys with rfl | rfl | rfl
    · exact absurd hends (by decide)
    · exact absurd hends (by decide)
    · exact hne rfl
  exact (@ConnectedServer.channelName_path asciiLowercase (serverOf threeChannels)
    isTree_threeChannels (Channels.distinctSiblings_of_nodup (by decide))
    (Channels.noSlash_of_names (by decide)) 2 _ _ rfl rfl).1 hshadowed

/-- A root with a child whose name ends with that of the root. -/
def twoRoots : Channels :=
  ((∅ : Channels).insert 0 ⟨none, [], 0, "Root", none, 0⟩).insert 1
    ⟨none, [], 0, "Old Root", some 0, 0⟩

theorem isTree_twoRoots : twoRoots.IsTree where
  root := by decide
  leads := by
    have hzero : Leads twoRoots.parentOf 0 [] 0 := .top (by decide)
    have hone : Leads twoRoots.parentOf 1 ([] ++ [1]) 0 := .up (by decide) hzero
    intro id hid
    have hkeys : id ∈ [1, 0] := AList.mem_keys.mp hid
    simp only [List.mem_cons, List.not_mem_nil, or_false] at hkeys
    rcases hkeys with rfl | rfl
    exacts [⟨_, hone⟩, ⟨_, hzero⟩]

/-- The path of the root is `Root`, and so ends that of its child. -/
theorem channelName_path_twoRoots :
    twoRoots.IsTree ∧ twoRoots.DistinctSiblings ∧ twoRoots.NoSlash ∧
      (twoRoots.lookup 0).map (·.path twoRoots) = some (.ok "Root") ∧
        (serverOf twoRoots).channelName asciiLowercase "Root" = .ok (.error .ambiguous) :=
  ⟨isTree_twoRoots, Channels.distinctSiblings_of_nodup (by decide),
    Channels.noSlash_of_names (by decide), rfl, rfl⟩

/-! ### Longer identifiers -/

def Ascii (s : String) : Prop := ∀ c ∈ s.toList, c.toNat < 128

instance (s : String) : Decidable (Ascii s) :=
  decidable_of_iff (s.toList.all fun c => c.toNat < 128) (by simp [Ascii])

/-- `str::to_lowercase` on ASCII strings. -/
def LowersAscii (toLowercase : String → String) : Prop :=
  ∀ s, Ascii s → (toLowercase s).toList = s.toList.map Char.toLower

section Ascii

variable {toLowercase : String → String} {s suffix : String}

theorem Ascii.of_endsWith (hs : Ascii s) (hends : endsWith s suffix = true) : Ascii suffix :=
  fun c hc => hs c ((endsWith_iff.mp hends).subset hc)

theorem LowersAscii.length_eq (hlower : LowersAscii toLowercase) (hs : Ascii s) :
    (toLowercase s).toList.length = s.toList.length := by
  rw [hlower s hs, List.length_map]

theorem LowersAscii.endsWith (hlower : LowersAscii toLowercase) (hs : Ascii s)
    (hends : Mum.endsWith s suffix = true) :
    Mum.endsWith (toLowercase s) (toLowercase suffix) = true := by
  rw [endsWith_iff, hlower s hs, hlower suffix (hs.of_endsWith hends)]
  exact (endsWith_iff.mp hends).map Char.toLower

theorem endsWith_trans {s s' s'' : String} (h : endsWith s s' = true)
    (h' : endsWith s' s'' = true) : endsWith s s'' = true :=
  endsWith_iff.mpr ((endsWith_iff.mp h').trans (endsWith_iff.mp h))

theorem ascii_intercalate {names : List String} (hnames : ∀ name ∈ names, Ascii name) :
    Ascii ("/".intercalate names) := by
  induction names with
  | nil => simp [Ascii]
  | cons name names ih =>
      have hrest := ih fun name hname => hnames name (List.mem_cons_of_mem _ hname)
      have hname := hnames name (List.mem_cons_self ..)
      cases names with
      | nil => simpa using hname
      | cons name' names =>
          intro c hc
          rw [String.intercalate_cons_cons, String.toList_append, String.toList_append,
            List.mem_append, List.mem_append] at hc
          rcases hc with (hc | hc) | hc
          · exact hname c hc
          · have hslash : c = '/' := by simpa using hc
            rw [hslash]
            decide
          · exact hrest c hc

end Ascii

namespace Channels

variable {channels channels' : Channels}

/-- The paths of a tree of ASCII names. -/
theorem ascii_path (htree : channels.IsTree)
    (hascii : ∀ id ∈ channels, Ascii (channels.nameOf id)) {id : UInt32} {channel : Channel}
    {path : String} (hchannel : channels.lookup id = some channel)
    (hpath : channel.path channels = .ok path) : Ascii path := by
  obtain ⟨walk, hwalk⟩ := htree.leads id (HashMap.mem_iff_lookup.mpr ⟨channel, hchannel⟩)
  cases hpath.symm.trans (path_of_leads hwalk hchannel)
  apply ascii_intercalate
  intro name hname
  obtain ⟨a, ha, rfl⟩ := List.mem_map.mp hname
  exact hascii a (mem_of_leads hwalk ha)

theorem parentOf_congr (hsame : ∀ id, channels'.lookup id = channels.lookup id) :
    channels'.parentOf = channels.parentOf :=
  funext fun id => by rw [parentOf, parentOf, hsame]

/-- The order in which the map is iterated does not matter. -/
theorem ends_congr (htree : channels.IsTree)
    (hsame : ∀ id, channels'.lookup id = channels.lookup id) {spell : String → String}
    {suffix : String} {entry : UInt32 × Channel} (hends : channels'.Ends spell suffix entry) :
    channels.Ends spell suffix entry := by
  have hname : channels'.nameOf = channels.nameOf :=
    funext fun id => by rw [nameOf, nameOf, hsame]
  obtain ⟨hentry, path, hpath, hsuffix⟩ := hends
  rw [HashMap.mem_iter] at hentry
  have hchannel : channels.lookup entry.1 = some entry.2 := (hsame entry.1).symm.trans hentry
  obtain ⟨walk, hwalk⟩ := htree.leads entry.1 (HashMap.mem_iff_lookup.mpr ⟨_, hchannel⟩)
  have hpath' := path_of_leads (parentOf_congr hsame ▸ hwalk) hentry
  rw [hname] at hpath'
  cases hpath.symm.trans hpath'
  exact ⟨HashMap.mem_iter.mpr hchannel, _, path_of_leads hwalk hchannel, hsuffix⟩

/-- The same tree in another order. -/
theorem IsTree.congr (htree : channels.IsTree)
    (hsame : ∀ id, channels'.lookup id = channels.lookup id) : channels'.IsTree := by
  constructor
  · rw [parentOf_congr hsame]
    exact htree.root
  · intro id hid
    rw [← parentOf_isSome, parentOf_congr hsame] at hid
    rw [parentOf_congr hsame]
    exact htree.leads id (parentOf_isSome.mp hid)

end Channels

/-- A longer identifier of the channel that an identifier names also names it, in
whichever order the map is iterated. -/
theorem ConnectedServer.channelName_of_longer {toLowercase : String → String}
    (hlower : LowersAscii toLowercase) {server server' : ConnectedServer}
    (htree : server.channels.IsTree)
    (hascii : ∀ id ∈ server.channels, Ascii (server.channels.nameOf id))
    (hsame : ∀ id, server'.channels.lookup id = server.channels.lookup id)
    {channelId : UInt32} {channel : Channel} {name longer path : String}
    (hname : server.channelName toLowercase name = .ok (.ok (channelId, channel)))
    (hpath : channel.path server.channels = .ok path) (hlonger : endsWith path longer = true)
    (hcase : endsWith (toLowercase longer) (toLowercase name) = true) :
    server'.channelName toLowercase longer = .ok (.ok (channelId, channel)) := by
  have htree' := htree.congr hsame
  have hselects := (channelName_eq_ok_iff htree.path_returns).mp hname
  have hends : ∀ other : UInt32 × Channel, server'.channels.Ends id longer other →
      server.channels.Ends id longer other := fun other => Channels.ends_congr htree hsame
  -- whatever stage it was, the channel is an entry of the map
  have hentry : (channelId, channel) ∈ server.channels.iter := by
    rcases hselects with h | h
    · exact h.1.1
    · exact h.2.1.1
  have hasciiPath : Ascii path :=
    Channels.ascii_path htree hascii (HashMap.mem_iter.mp hentry) hpath
  refine (channelName_eq_ok_iff htree'.path_returns).mpr (hselects.narrow ?_ ?_ ?_)
  · exact Channels.ends_congr htree' (fun id => (hsame id).symm) ⟨hentry, path, hpath, hlonger⟩
  · rintro ⟨-, path', hpath', hstrict⟩ other hother
    cases hpath.symm.trans hpath'
    -- both identifiers are ends of one path, so the shorter is an end of the longer
    have hlen := (endsWith_iff.mp hcase).length_le
    rw [hlower.length_eq (hasciiPath.of_endsWith hstrict),
      hlower.length_eq (hasciiPath.of_endsWith hlonger)] at hlen
    have hlongerEnds : endsWith longer name = true := endsWith_iff.mpr
      (List.suffix_of_suffix_length_le (endsWith_iff.mp hstrict) (endsWith_iff.mp hlonger) hlen)
    obtain ⟨hmem, otherPath, hotherPath, hotherEnds⟩ := hends other hother
    exact ⟨hmem, otherPath, hotherPath, endsWith_trans hotherEnds hlongerEnds⟩
  · intro other hother
    obtain ⟨hmem, otherPath, hotherPath, hotherEnds⟩ := hends other hother
    have hotherAscii : Ascii otherPath :=
      Channels.ascii_path htree hascii (HashMap.mem_iter.mp hmem) hotherPath
    exact ⟨hmem, otherPath, hotherPath,
      endsWith_trans (hlower.endsWith hotherAscii hotherEnds) hcase⟩

/-- The map of `threeChannels`, iterated in another order. -/
def turnedChannels : Channels :=
  (((∅ : Channels).insert 2 ⟨some "quiet", [], 0, "Corner", some 1, 3⟩).insert 0
    ⟨none, [], 0, "Root", none, 0⟩).insert 1 ⟨none, [], 5, "Lobby", some 0, 0⟩

theorem lookup_turnedChannels (id : UInt32) :
    turnedChannels.lookup id = threeChannels.lookup id := by
  by_cases hzero : id = 0
  · subst hzero
    rfl
  by_cases hone : id = 1
  · subst hone
    rfl
  by_cases htwo : id = 2
  · subst htwo
    rfl
  have hturned : id ∉ turnedChannels := by
    intro hid
    have hkeys : id ∈ [1, 0, 2] := AList.mem_keys.mp hid
    simp [hzero, hone, htwo] at hkeys
  have hthree : id ∉ threeChannels := by
    intro hid
    have hkeys : id ∈ [2, 1, 0] := AList.mem_keys.mp hid
    simp [hzero, hone, htwo] at hkeys
  rw [AList.lookup_eq_none.mpr hturned, AList.lookup_eq_none.mpr hthree]

theorem lowersAscii_asciiLowercase : LowersAscii asciiLowercase :=
  fun _ _ => String.toList_ofList

theorem channelName_of_longer_corner :
    (serverOf turnedChannels).channelName asciiLowercase "Lobby/Corner" =
      .ok (.ok (2, ⟨some "quiet", [], 0, "Corner", some 1, 3⟩)) := by
  have hascii : ∀ name ∈ threeChannels.keys.map threeChannels.nameOf, Ascii name := by decide
  exact @ConnectedServer.channelName_of_longer asciiLowercase lowersAscii_asciiLowercase
    (serverOf threeChannels) (serverOf turnedChannels) isTree_threeChannels
    (fun _ hid => hascii _ (List.mem_map_of_mem (AList.mem_keys.mp hid)))
    lookup_turnedChannels 2 _ "corner" "Lobby/Corner" "Root/Lobby/Corner" rfl rfl (by decide)
    (by decide)

end Mum
