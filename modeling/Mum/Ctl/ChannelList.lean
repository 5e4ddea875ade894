import Mum.Ctl.MatchOpt
import Mum.State.Canonical
import Mum.State.Messages

/-!
# What `channel list` prints

`mumctl channel list` prints the tree that the daemon made of its map of channels.
`ConnectedServer.lines` says without any tree what there is to be printed for a
channel; the lines are those of every channel that is shown, in the order of a walk
through the tree.

## Strategy

`Shows` relates a tree of `intoChannel` to the map that it was made of, with the walk of
every node.  The lines of a node are those of its channel (`ownLines_of_shows`), and by
induction on `Shows` the lines of a tree are those of its walks, in the order of the
nodes.  Which walks there are, and that they come in order, is known of the listing of
`intoChannel`.
-/

namespace Mum

open Library Library.Eval Library.ParentChain Library.PathOrder

/-- The lines of the channel at the end of a walk: its name, how many of how many users
are in it, and who they are. -/
def ConnectedServer.lines (s : ConnectedServer) (walk : List UInt32) : List String :=
  match s.channels.lookup (endOf walk) with
  | none => []
  | some channel =>
      let users := s.users.values.filter fun user => user.channel = endOf walk
      (Ctl.indent walk.length ++ channel.name ++
          if channel.maxUsers ≠ 0 then
            " " ++ toString users.length ++ "/" ++ toString channel.maxUsers.toNat
          else "") ::
        users.map fun user =>
          Ctl.indent (walk.length + 1) ++ "- " ++ (Mumlib.User.ofUser user).display

section Shows

variable {s : ConnectedServer} {R : UInt32 → UInt32 → Prop} {walk : List UInt32}
  {tree : Mumlib.Channel} {nodes : List (List UInt32 × Mumlib.Channel)}

/-- The own lines of a node are those of its channel. -/
theorem ownLines_of_shows (h : Shows s.channels s.users R walk tree nodes) :
    Ctl.ownLines walk.length tree = s.lines walk := by
  cases h with
  | node hchannel hname hdescription hmaxUsers husers hchildren hsorted hkids =>
      rw [ConnectedServer.lines, hchannel, Ctl.ownLines, Ctl.channelLine, hname, hmaxUsers, husers,
        List.length_map, List.map_map]
      rfl

theorem printChannel_of_shows (h : Shows s.channels s.users R walk tree nodes) :
    Ctl.printChannel walk.length tree = (nodes.map Prod.fst).flatMap s.lines := by
  induction h with
  | @node walk channel tree kids hchannel hname hdescription hmaxUsers husers hchildren hsorted
      hkids ih =>
      have hown := ownLines_of_shows
        (.node hchannel hname hdescription hmaxUsers husers hchildren hsorted hkids)
      have hbelow : Ctl.printChannels (walk.length + 1) (kids.map fun kid => kid.2.1) =
          ((kids.map fun kid => kid.2.2).flatten.map Prod.fst).flatMap s.lines := by
        clear hchildren hsorted hkids hown
        induction kids with
        | nil => rfl
        | cons kid rest ihrest =>
            have hkid := ih kid List.mem_cons_self
            rw [List.length_append, List.length_singleton] at hkid
            rw [List.map_cons, List.map_cons, List.flatten_cons, List.map_append,
              List.flatMap_append, Ctl.printChannels, hkid,
              ihrest fun kid' hmem => ih kid' (List.mem_cons_of_mem _ hmem)]
      obtain ⟨description, maxUsers, name, children, treeUsers, links⟩ := tree
      rw [List.map_cons, List.flatMap_cons, ← hown, ← hbelow, ← hchildren, Ctl.printChannel]

end Shows

namespace Ctl

/-- **The channels that are printed.**  The lines are those of the root, and of every
channel whose parents lead to a channel without a parent, each once.  Which one that is
makes no difference: what is below it stands below the root, and it is itself printed
only if it is the root.  A channel comes after the one above it and is indented by its
depth, and siblings are sorted by position and name. -/
theorem channelList_lines {host : Host} {state : State} {s : ConnectedServer}
    {outcome : Mum.Outcome} {response : Mumlib.Response} (hserver : state.server = .connected s)
    (hcommand : handleCommand host state .channelList = .ok outcome)
    (hcontext : outcome.context = .now [response]) {terminal : Terminal}
    (hsend : terminal.sendCommand .channelList = .ok response) (floats : Floats)
    (file : File) (document : Mumlib.Document) (config : Mumlib.Config) (short : Bool) :
    ∃ walks : List (List UInt32), walks.Pairwise (Before s.channels.Sorted) ∧
      (∀ walk, walk ∈ walks ↔ walk = [] ∨ walk ≠ [] ∧ ∃ id r, Leads s.channels.parentOf id walk r) ∧
      (Opt.channel (.list short)).run floats terminal file document config =
        .ok { file := file, result := .ok (), output := walks.flatMap s.lines } := by
  rw [handleCommand, hserver] at hcommand
  obtain ⟨tree, htree, hcommand⟩ := bind_eq_ok.mp hcommand
  cases hcommand
  cases hcontext
  obtain ⟨nodes, hlisting⟩ := intoChannel_listing (host.order.sorts s.channels) htree
  refine ⟨nodes.map Prod.fst, List.pairwise_map.mpr hlisting.shows.pairwise, hlisting.walks, ?_⟩
  rw [Opt.run, hsend]
  have hlines := printChannel_of_shows hlisting.shows
  rw [List.length_nil] at hlines
  rw [← hlines]
  rfl

/-- Somebody asks for the three channels, of which one holds us. -/
theorem channelList_lines_lobby :
    ∃ (terminal : Terminal) (walks : List (List UInt32)),
      walks.Pairwise (Before lobbyServer.channels.Sorted) ∧
      (∀ walk, walk ∈ walks ↔
        walk = [] ∨ walk ≠ [] ∧ ∃ id r, Leads lobbyServer.channels.parentOf id walk r) ∧
      (Opt.channel (.list false)).run noFloats terminal .missing [] {} =
        .ok { file := .missing, result := .ok (), output := walks.flatMap lobbyServer.lines } := by
  obtain ⟨tree, htree⟩ := isTree_threeChannels.intoChannel_returns .insertion onlyMe
  let state := State.fresh (.connected lobbyServer) (.connected .tcp)
  have hcommand : handleCommand .offline state .channelList =
      .ok (state.answer (.ok (some (.channelList tree)))) :=
    bind_eq_ok.mpr ⟨tree, htree, rfl⟩
  exact ⟨.answering fun _ => .ok (.ok (some (.channelList tree))),
    channelList_lines rfl hcommand rfl rfl _ _ _ _ _⟩

end Ctl

end Mum
