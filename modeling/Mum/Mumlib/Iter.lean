import Mathlib.Logic.Function.Iterate
import Mum.Library.Eval
import Mum.Library.Iterator
import Mum.Mumlib.State

/-!
# Iterating over the channels

`Channel::iter` and `Channel::users_iter` of `mumlib::state` and the iterators
that they make.  The iterator of a channel holds those of its children, and goes
through them one after the other; `next_spec` says that what it still has to
return is the rest of the pre-order.

The iterators use indices.  `InRange` says that they are good, as they are in a
new iterator and after every call.

The spec is mutual, as the iterators are: one statement for an iterator and one for the list
of the children's, both by recursion on the tree of iterators (`Iter.next_spec`,
`Iter.nextFrom_spec`).  Since the calls are then those of an iterator over a list, the rest
is `Mum.Library.Iterator`.
-/

namespace Mum.Mumlib

open Library Library.Eval

/-- An iterator over channels: the channel itself unless it was returned, and the
iterators of the children with the index of the one that is used. -/
inductive Iter
  | mk (me : Option Channel) (channel : Option ℕ) (channels : List Iter)

mutual

def Channel.iter : Channel → Iter
  | ⟨description, maxUsers, name, children, users, links⟩ =>
      .mk (some ⟨description, maxUsers, name, children, users, links⟩)
        (if children.isEmpty then none else some 0) (Channel.iters children)

def Channel.iters : List Channel → List Iter
  | [] => []
  | child :: rest => child.iter :: Channel.iters rest

end

namespace Iter

mutual

/-- The next channel, and the iterator after it. -/
def next : Iter → Option Channel × Iter
  | .mk (some me) channel channels => (some me, .mk none channel channels)
  | .mk none none channels => (none, .mk none none channels)
  | .mk none (some c) channels =>
      match nextFrom c channels with
      | (none, _, channels) => (none, .mk none none channels)
      | (some found, c, channels) => (some found, .mk none (some c) channels)

/-- The loop over the children from an index on: the next channel, the index of
the child that it is from, and the iterators of all children. -/
def nextFrom : ℕ → List Iter → Option Channel × ℕ × List Iter
  | c, [] => (none, c, [])
  | 0, it :: rest =>
      match it.next with
      | (some found, it) => (some found, 0, it :: rest)
      | (none, it) =>
          let (found, c, rest) := nextFrom 0 rest
          (found, c + 1, it :: rest)
  | c + 1, it :: rest =>
      let (found, c, rest) := nextFrom c rest
      (found, c + 1, it :: rest)

end

/-- `Iterator::find`. -/
def find (p : Channel → Bool) : ℕ → Iter → Eval (Option Channel)
  | 0, _ => .error .hang
  | fuel + 1, it =>
      match it.next with
      | (none, _) => .ok none
      | (some channel, it) => if p channel then .ok (some channel) else find p fuel it

end Iter

/-! ## What is returned -/

mutual

/-- A channel before its children, one child after the other. -/
def Channel.preorder : Channel → List Channel
  | ⟨description, maxUsers, name, children, users, links⟩ =>
      ⟨description, maxUsers, name, children, users, links⟩ :: Channel.preorders children

def Channel.preorders : List Channel → List Channel
  | [] => []
  | child :: rest => child.preorder ++ Channel.preorders rest

end

namespace Iter

mutual

/-- What an iterator still has to return. -/
def remaining : Iter → List Channel
  | .mk me channel channels =>
      me.toList ++ (channel.elim [] fun c => remainingFrom c channels)

def remainingFrom : ℕ → List Iter → List Channel
  | _, [] => []
  | 0, it :: rest => it.remaining ++ remainingFrom 0 rest
  | c + 1, _ :: rest => remainingFrom c rest

end

mutual

/-- `next` returns the first of the remaining channels and leaves the others. -/
theorem next_spec : ∀ it : Iter,
    it.next.1 = it.remaining.head? ∧ it.next.2.remaining = it.remaining.tail
  | .mk (some me) channel channels => by
      rw [next, remaining]
      refine ⟨rfl, ?_⟩
      dsimp only
      rw [remaining]
      rfl
  | .mk none none channels => by
      rw [next, remaining]
      exact ⟨rfl, rfl⟩
  | .mk none (some c) channels => by
      obtain ⟨hfirst, hrest⟩ := nextFrom_spec c channels
      have hremaining : (Iter.mk none (some c) channels).remaining = remainingFrom c channels := by
        rw [remaining]
        rfl
      rw [hremaining, next]
      rcases hnext : nextFrom c channels with ⟨_ | found, c', channels'⟩
      · rw [hnext] at hfirst
        have hempty : remainingFrom c channels = [] := List.head?_eq_none_iff.mp hfirst.symm
        rw [hempty]
        refine ⟨rfl, ?_⟩
        dsimp only
        rw [remaining]
        rfl
      · rw [hnext] at hfirst hrest
        refine ⟨hfirst, ?_⟩
        dsimp only
        rw [remaining, ← hrest]
        rfl

theorem nextFrom_spec : ∀ (c : ℕ) (channels : List Iter),
    (nextFrom c channels).1 = (remainingFrom c channels).head? ∧
      remainingFrom (nextFrom c channels).2.1 (nextFrom c channels).2.2 =
        (remainingFrom c channels).tail
  | c, [] => by
      rw [nextFrom, remainingFrom]
      exact ⟨rfl, rfl⟩
  | 0, it :: rest => by
      obtain ⟨hfirst, hit⟩ := next_spec it
      obtain ⟨hfirst', hrest⟩ := nextFrom_spec 0 rest
      rw [nextFrom, remainingFrom]
      rcases hnext : it.next with ⟨_ | found, it'⟩
      · -- the child is exhausted, and stays so
        rw [hnext] at hfirst hit
        have hempty : it.remaining = [] := List.head?_eq_none_iff.mp hfirst.symm
        rw [hempty, List.nil_append]
        exact ⟨hfirst', by rw [← hrest, remainingFrom]⟩
      · rw [hnext] at hfirst hit
        obtain ⟨rest', hremaining⟩ : ∃ rest', it.remaining = found :: rest' :=
          List.head?_eq_some_iff.mp hfirst.symm
        rw [hremaining] at hit ⊢
        refine ⟨rfl, ?_⟩
        dsimp only
        rw [remainingFrom, hit]
        rfl
  | c + 1, it :: rest => by
      obtain ⟨hfirst, hrest⟩ := nextFrom_spec c rest
      rw [nextFrom, remainingFrom]
      exact ⟨hfirst, by rw [← hrest, remainingFrom]⟩

end

/-- `find` is that of the list of the remaining channels. -/
theorem find_eq_ok (p : Channel → Bool) {fuel : ℕ} {it : Iter}
    (hfuel : it.remaining.length < fuel) : it.find p fuel = .ok (it.remaining.find? p) := by
  induction fuel generalizing it with
  | zero => exact absurd hfuel (Nat.not_lt_zero _)
  | succ fuel ih =>
      obtain ⟨hfirst, hrest⟩ := next_spec it
      rw [find]
      rcases hnext : it.next with ⟨_ | channel, it'⟩
      · rw [hnext] at hfirst
        rw [List.head?_eq_none_iff.mp hfirst.symm]
        rfl
      · rw [hnext] at hfirst hrest
        obtain ⟨rest, hremaining⟩ := List.head?_eq_some_iff.mp hfirst.symm
        rw [hremaining] at hrest hfuel ⊢
        rw [List.find?_cons]
        dsimp only
        cases p channel with
        | true => rfl
        | false =>
            rw [List.tail_cons] at hrest
            rw [← hrest]
            exact ih (by rw [hrest]; exact Nat.lt_of_succ_lt_succ hfuel)

end Iter

mutual

/-- A new iterator returns the channels in pre-order. -/
theorem Channel.remaining_iter : ∀ channel : Channel, channel.iter.remaining = channel.preorder
  | ⟨description, maxUsers, name, children, users, links⟩ => by
      rw [Channel.iter, Iter.remaining, Channel.preorder, ← Channel.remaining_iters children]
      cases children with
      | nil =>
          rw [Channel.iters, Iter.remainingFrom]
          rfl
      | cons child rest => rfl

theorem Channel.remaining_iters : ∀ children : List Channel,
    Iter.remainingFrom 0 (Channel.iters children) = Channel.preorders children
  | [] => by rw [Channel.iters, Iter.remainingFrom, Channel.preorders]
  | child :: rest => by
      rw [Channel.iters, Iter.remainingFrom, Channel.preorders, Channel.remaining_iter child,
        Channel.remaining_iters rest]

end

/-! ## The index of the child -/

namespace Iter

mutual

/-- The index is that of a child, here and in the iterators of the children. -/
def InRange : Iter → Prop
  | .mk _ channel channels => (∀ c, channel = some c → c < channels.length) ∧ AllInRange channels

def AllInRange : List Iter → Prop
  | [] => True
  | it :: rest => it.InRange ∧ AllInRange rest

end

theorem allInRange_cons {it : Iter} {rest : List Iter} :
    AllInRange (it :: rest) ↔ it.InRange ∧ AllInRange rest := by
  rw [AllInRange]

mutual

theorem inRange_next : ∀ it : Iter, it.InRange → it.next.2.InRange
  | .mk (some me) channel channels => fun h => by
      rw [next]
      rw [InRange] at h ⊢
      exact h
  | .mk none none channels => fun h => by
      rw [next]
      exact h
  | .mk none (some c) channels => fun h => by
      rw [InRange] at h
      obtain ⟨hall, hindex⟩ := inRange_nextFrom c channels h.2
      rw [next]
      rcases hnext : nextFrom c channels with ⟨_ | found, c', channels'⟩
      · rw [hnext] at hall
        dsimp only
        rw [InRange]
        exact ⟨(fun c hc => by cases hc), hall⟩
      · rw [hnext] at hall hindex
        dsimp only
        rw [InRange]
        refine ⟨fun c hc => ?_, hall⟩
        cases hc
        exact hindex rfl

theorem inRange_nextFrom : ∀ (c : ℕ) (channels : List Iter), AllInRange channels →
    AllInRange (nextFrom c channels).2.2 ∧ ((nextFrom c channels).1.isSome →
      (nextFrom c channels).2.1 < (nextFrom c channels).2.2.length)
  | c, [] => fun h => by
      rw [nextFrom]
      exact ⟨h, fun hsome => by cases hsome⟩
  | 0, it :: rest => fun h => by
      obtain ⟨hit, hrest⟩ := allInRange_cons.mp h
      have hit' := inRange_next it hit
      obtain ⟨hall, hindex⟩ := inRange_nextFrom 0 rest hrest
      rw [nextFrom]
      rcases hnext : it.next with ⟨_ | found, it'⟩
      · rw [hnext] at hit'
        exact ⟨allInRange_cons.mpr ⟨hit', hall⟩, fun hsome => Nat.succ_lt_succ (hindex hsome)⟩
      · rw [hnext] at hit'
        exact ⟨allInRange_cons.mpr ⟨hit', hrest⟩, fun _ => Nat.succ_pos _⟩
  | c + 1, it :: rest => fun h => by
      obtain ⟨hit, hrest⟩ := allInRange_cons.mp h
      obtain ⟨hall, hindex⟩ := inRange_nextFrom c rest hrest
      rw [nextFrom]
      exact ⟨allInRange_cons.mpr ⟨hit, hall⟩, fun hsome => Nat.succ_lt_succ (hindex hsome)⟩

end

end Iter

mutual

theorem Channel.inRange_iter : ∀ channel : Channel, channel.iter.InRange
  | ⟨description, maxUsers, name, children, users, links⟩ => by
      have hchildren := Channel.inRange_iters children
      rw [Channel.iter, Iter.InRange]
      refine ⟨?_, hchildren⟩
      cases children with
      | nil =>
          intro c hc
          cases hc
      | cons child rest =>
          intro c hc
          cases hc
          rw [Channel.iters]
          exact Nat.succ_pos _

theorem Channel.inRange_iters : ∀ children : List Channel,
    Iter.AllInRange (Channel.iters children)
  | [] => by
      rw [Channel.iters, Iter.AllInRange]
      trivial
  | child :: rest => by
      rw [Channel.iters]
      exact Iter.allInRange_cons.mpr ⟨child.inRange_iter, Channel.inRange_iters rest⟩

end

theorem Iter.lists_remaining :
    Lists (fun it : Iter => .ok it.next) Iter.InRange Iter.remaining := by
  intro it hit
  obtain ⟨hfirst, hrest⟩ := Iter.next_spec it
  exact ⟨it.next.2, by rw [← hfirst], Iter.inRange_next it hit, hrest⟩

/-! ## The users -/

/-- An iterator over the users of a channel and of its children: the index of the
child whose iterator is used, and of the user that is next. -/
inductive UsersIter
  | mk (channel : Option ℕ) (channels : List UsersIter) (user : Option ℕ) (users : List User)

mutual

def Channel.usersIter : Channel → UsersIter
  | ⟨_, _, _, children, users, _⟩ =>
      .mk (if children.isEmpty then none else some 0) (Channel.usersIters children)
        (if users.isEmpty then none else some 0) users

def Channel.usersIters : List Channel → List UsersIter
  | [] => []
  | child :: rest => child.usersIter :: Channel.usersIters rest

end

namespace UsersIter

mutual

/-- The next user, and the iterator after it. -/
def next : UsersIter → Eval (Option User × UsersIter)
  | .mk channel channels (some u) users => do
      let ret ← unwrap users[u]?
      .ok (some ret,
        .mk channel channels (if u + 1 < users.length then some (u + 1) else none) users)
  | .mk none channels none users => .ok (none, .mk none channels none users)
  | .mk (some c) channels none users => do
      let (n, c, channels) ← nextFrom c channels
      .ok (n, .mk (if n.isSome then some c else none) channels none users)

/-- The loop over the children from an index on: the next user, the index of the
child that it is from, and the iterators of all children. -/
def nextFrom : ℕ → List UsersIter → Eval (Option User × ℕ × List UsersIter)
  | _, [] => .error .panic
  | 0, it :: rest => do
      let (n, it) ← it.next
      -- `c >= self.channels.len()`
      if n.isSome || rest.isEmpty then .ok (n, 0, it :: rest)
      else do
        let (n, c, rest) ← nextFrom 0 rest
        .ok (n, c + 1, it :: rest)
  | c + 1, it :: rest => do
      let (n, c, rest) ← nextFrom c rest
      .ok (n, c + 1, it :: rest)

end

mutual

/-- The users that an iterator still has to return. -/
def remaining : UsersIter → List User
  | .mk channel channels user users =>
      (user.elim [] fun u => users.drop u) ++ (channel.elim [] fun c => remainingFrom c channels)

def remainingFrom : ℕ → List UsersIter → List User
  | _, [] => []
  | 0, it :: rest => it.remaining ++ remainingFrom 0 rest
  | c + 1, _ :: rest => remainingFrom c rest

end

mutual

/-- The indices are those of a child and of a user. -/
def InRange : UsersIter → Prop
  | .mk channel channels user users =>
      (∀ c, channel = some c → c < channels.length) ∧ (∀ u, user = some u → u < users.length) ∧
        AllInRange channels

def AllInRange : List UsersIter → Prop
  | [] => True
  | it :: rest => it.InRange ∧ AllInRange rest

end

theorem allInRange_cons {it : UsersIter} {rest : List UsersIter} :
    AllInRange (it :: rest) ↔ it.InRange ∧ AllInRange rest := by
  rw [AllInRange]

/-- The users of a channel come before those of its children. -/
theorem next_spec_own {channel : Option ℕ} {channels : List UsersIter} {u : ℕ}
    {users : List User} (h : (UsersIter.mk channel channels (some u) users).InRange) :
    ∃ it', (UsersIter.mk channel channels (some u) users).next =
        .ok ((UsersIter.mk channel channels (some u) users).remaining.head?, it') ∧
      it'.InRange ∧
      it'.remaining = (UsersIter.mk channel channels (some u) users).remaining.tail := by
  rw [InRange] at h
  obtain ⟨hchannel, huser, hall⟩ := h
  have hlt : u < users.length := huser u rfl
  have hdrop : users.drop u = users[u] :: users.drop (u + 1) := List.drop_eq_getElem_cons hlt
  refine ⟨.mk channel channels (if u + 1 < users.length then some (u + 1) else none) users,
    ?_, ?_, ?_⟩
  · rw [next, List.getElem?_eq_getElem hlt, unwrap_some, ok_bind, remaining, Option.elim_some,
      hdrop]
    rfl
  · rw [InRange]
    refine ⟨hchannel, fun u' hu' => ?_, hall⟩
    split at hu'
    · next hmore =>
        cases hu'
        exact hmore
    · cases hu'
  · rw [remaining, remaining, Option.elim_some, hdrop, List.cons_append, List.tail_cons]
    split
    · rfl
    · next hlast =>
        rw [List.drop_eq_nil_of_le (Nat.not_lt.mp hlast)]
        rfl

mutual

/-- `next` returns the first of the remaining users and leaves the others. -/
theorem next_spec : ∀ it : UsersIter, it.InRange →
    ∃ it', it.next = .ok (it.remaining.head?, it') ∧ it'.InRange ∧
      it'.remaining = it.remaining.tail
  | .mk channel channels (some u) users => next_spec_own
  | .mk none channels none users => fun h => by
      refine ⟨.mk none channels none users, ?_, h, ?_⟩
      · rw [next, remaining]
        rfl
      · rw [remaining]
        rfl
  | .mk (some c) channels none users => fun h => by
      rw [InRange] at h
      obtain ⟨hchannel, huser, hall⟩ := h
      obtain ⟨c', channels', hnext, hall', hc', hrest⟩ :=
        nextFrom_spec c channels (hchannel c rfl) hall
      have hremaining : (UsersIter.mk (some c) channels none users).remaining =
          remainingFrom c channels := by
        rw [remaining]
        rfl
      refine ⟨.mk (if (remainingFrom c channels).head?.isSome then some c' else none) channels'
        none users, ?_, ?_, ?_⟩
      · rw [next, hnext, ok_bind, hremaining]
      · rw [InRange]
        refine ⟨fun c'' hc'' => ?_, huser, hall'⟩
        split at hc''
        · cases hc''
          exact hc'
        · cases hc''
      · rw [hremaining, remaining, ← hrest]
        split
        · rfl
        · next hnone =>
            -- an iterator that is exhausted has nothing left either
            have hempty : remainingFrom c channels = [] := by
              rw [← List.head?_eq_none_iff]
              exact Option.not_isSome_iff_eq_none.mp hnone
            rw [hrest, hempty]
            rfl

theorem nextFrom_spec : ∀ (c : ℕ) (channels : List UsersIter), c < channels.length →
    AllInRange channels → ∃ c' channels',
      nextFrom c channels = .ok ((remainingFrom c channels).head?, c', channels') ∧
        AllInRange channels' ∧ c' < channels'.length ∧
        remainingFrom c' channels' = (remainingFrom c channels).tail
  | c, [] => fun hc _ => absurd hc (Nat.not_lt_zero c)
  | 0, it :: rest => fun _ hall => by
      obtain ⟨hit, hrest⟩ := allInRange_cons.mp hall
      obtain ⟨it', hnext, hit', hleft⟩ := next_spec it hit
      rw [nextFrom, hnext, ok_bind, remainingFrom]
      dsimp only
      cases hremaining : it.remaining with
      | cons user users =>
          rw [hremaining] at hleft
          refine ⟨0, it' :: rest, rfl, allInRange_cons.mpr ⟨hit', hrest⟩, Nat.succ_pos _, ?_⟩
          rw [remainingFrom, hleft]
          rfl
      | nil =>
          rw [hremaining] at hleft
          rw [List.nil_append]
          by_cases hlast : rest = []
          · subst hlast
            refine ⟨0, [it'], ?_, allInRange_cons.mpr ⟨hit', hrest⟩, Nat.succ_pos _, ?_⟩
            · rw [remainingFrom]
              rfl
            · rw [remainingFrom, remainingFrom, hleft]
              rfl
          · obtain ⟨c', rest', hrest', hall', hc', hleft'⟩ :=
              nextFrom_spec 0 rest (List.length_pos_iff.mpr hlast) hrest
            refine ⟨c' + 1, it' :: rest', ?_, allInRange_cons.mpr ⟨hit', hall'⟩,
              Nat.succ_lt_succ hc', ?_⟩
            · rw [if_neg (by simp [hlast]), hrest']
              rfl
            · rw [remainingFrom, hleft']
  | c + 1, it :: rest => fun hc hall => by
      obtain ⟨hit, hrest⟩ := allInRange_cons.mp hall
      obtain ⟨c', rest', hrest', hall', hc', hleft⟩ :=
        nextFrom_spec c rest (Nat.lt_of_succ_lt_succ hc) hrest
      refine ⟨c' + 1, it :: rest', ?_, allInRange_cons.mpr ⟨hit, hall'⟩,
        Nat.succ_lt_succ hc', ?_⟩
      · rw [nextFrom, hrest', ok_bind, remainingFrom]
      · rw [remainingFrom, hleft, remainingFrom]

end

theorem lists_remaining : Lists next InRange remaining := next_spec

end UsersIter

mutual

/-- A new iterator returns the users of the channels in pre-order. -/
theorem Channel.remaining_usersIter : ∀ channel : Channel,
    channel.usersIter.remaining = channel.preorder.flatMap Channel.users
  | ⟨description, maxUsers, name, children, users, links⟩ => by
      have hchildren := Channel.remaining_usersIters children
      have husers : ((if users.isEmpty then none else some 0).elim [] fun u => users.drop u) =
          users := by
        cases users <;> rfl
      rw [Channel.usersIter, UsersIter.remaining, Channel.preorder, List.flatMap_cons, ← hchildren,
        husers]
      cases children with
      | nil =>
          rw [Channel.usersIters, UsersIter.remainingFrom]
          rfl
      | cons child rest => rfl

theorem Channel.remaining_usersIters : ∀ children : List Channel,
    UsersIter.remainingFrom 0 (Channel.usersIters children) =
      (Channel.preorders children).flatMap Channel.users
  | [] => by
      rw [Channel.usersIters, UsersIter.remainingFrom, Channel.preorders]
      rfl
  | child :: rest => by
      rw [Channel.usersIters, UsersIter.remainingFrom, Channel.preorders, List.flatMap_append,
        child.remaining_usersIter, Channel.remaining_usersIters rest]

end

mutual

theorem Channel.inRange_usersIter : ∀ channel : Channel, channel.usersIter.InRange
  | ⟨description, maxUsers, name, children, users, links⟩ => by
      have hchildren := Channel.inRange_usersIters children
      rw [Channel.usersIter, UsersIter.InRange]
      refine ⟨?_, ?_, hchildren⟩
      · cases children with
        | nil =>
            intro c hc
            cases hc
        | cons child rest =>
            intro c hc
            cases hc
            rw [Channel.usersIters]
            exact Nat.succ_pos _
      · cases users with
        | nil =>
            intro u hu
            cases hu
        | cons user rest =>
            intro u hu
            cases hu
            exact Nat.succ_pos _

theorem Channel.inRange_usersIters : ∀ children : List Channel,
    UsersIter.AllInRange (Channel.usersIters children)
  | [] => by
      rw [Channel.usersIters, UsersIter.AllInRange]
      trivial
  | child :: rest => by
      rw [Channel.usersIters]
      exact UsersIter.allInRange_cons.mpr
        ⟨child.inRange_usersIter, Channel.inRange_usersIters rest⟩

end

/-- **The iterators go through the tree in pre-order.**  The calls return the
channels, or their users, one after the other, and then nothing for ever; the
indices that they use are always good. -/
theorem Channel.nthCall_iter (channel : Channel) (n : ℕ) :
    nthCall (fun it : Iter => .ok it.next) n channel.iter = .ok channel.preorder[n]? ∧
      (Nat.iterate (fun it : Iter => it.next.2) n channel.iter).InRange ∧
      nthCall UsersIter.next n channel.usersIter =
        .ok (channel.preorder.flatMap Channel.users)[n]? := by
  refine ⟨?_, ?_, ?_⟩
  · rw [nthCall_eq Iter.lists_remaining channel.inRange_iter, channel.remaining_iter]
  · induction n with
    | zero => exact channel.inRange_iter
    | succ n ih =>
        rw [Function.iterate_succ_apply']
        exact Iter.inRange_next _ ih
  · rw [nthCall_eq UsersIter.lists_remaining channel.inRange_usersIter,
      channel.remaining_usersIter]

end Mum.Mumlib
