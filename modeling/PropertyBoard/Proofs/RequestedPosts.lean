import Mathlib.Data.List.Sort
import PropertyBoard.Proofs.Listing
import PropertyBoard.Proofs.Posts

/-!
# PropertyBoard.Proofs.RequestedPosts

Posts that are asked for by their identifiers, which may be unknown and may come again.

* `Store.PostsFor`: the posts of the identifiers, each once, in the order in which the identifiers
  first come. `PostsFor.unique`: there is one such list.
* `Posts.inOrder_of_perm`: the walk over the identifiers shows the same in whatever order the rows
  come. `Posts.takeOut_byId`: so it does where the rows go into a map, and each post is taken out of
  the map as it is shown.
* `Posts.getAll_exact`: so the posts of the identifiers are shown, unless there are more identifiers
  than a statement may carry values. `Posts.repeated_identifier_refused`: of those there may be too
  many although they are all the same.
-/

namespace PropertyBoard

open Store

namespace Store

variable {s : Store} {ids : List String}

/-- The posts of some identifiers: all that the store has and no others, in the order in which the
identifiers first come, and so each once. -/
structure PostsFor (s : Store) (ids : List String) (posts : List Post) : Prop where
  mem_iff : ∀ p, p ∈ posts ↔ p ∈ s.posts ∧ p.id ∈ ids
  asFirstSeen : Value.AsFirstSeen ids (posts.map Post.id)

theorem PostsFor.ordered {posts : List Post} (h : s.PostsFor ids posts) :
    posts.Pairwise fun p q => ids.idxOf p.id < ids.idxOf q.id := by
  have horder := h.asFirstSeen
  rwa [Value.AsFirstSeen, List.pairwise_map] at horder

theorem PostsFor.unique {left right : List Post} (hleft : s.PostsFor ids left)
    (hright : s.PostsFor ids right) : left = right := by
  have hasymm : Std.Asymm fun p q : Post => ids.idxOf p.id < ids.idxOf q.id :=
    ⟨fun _ _ => Nat.lt_asymm⟩
  refine hleft.ordered.eq_of_mem_iff hright.ordered ?_
  intro p
  rw [hleft.mem_iff, hright.mem_iff]

/-- What there is for each identifier where it first comes. -/
theorem postsFor_distinct (hids : (s.posts.map Post.id).Nodup) (ids : List String) :
    s.PostsFor ids ((Value.distinct ids).filterMap s.post?) where
  mem_iff p := by
    rw [List.mem_filterMap]
    constructor
    · rintro ⟨id, hid, hp⟩
      obtain ⟨hmem, rfl⟩ := (find?_key_eq_some hids).1 hp
      exact ⟨hmem, Value.mem_distinct.1 hid⟩
    · rintro ⟨hmem, hid⟩
      exact ⟨p.id, Value.mem_distinct.2 hid, find?_key_eq hids hmem⟩
  asFirstSeen := by
    rw [map_id_filterMap_post?]
    exact (Value.distinct_asFirstSeen ids).filter _

end Store

namespace Posts

open Sql

variable {s : Store} {rows found : List Post}

/-! ## The order of the rows -/

theorem inOrder_of_perm (hids : (found.map Post.id).Nodup) (hperm : rows.Perm found)
    (ids : List String) : inOrder rows [] ids = inOrder found [] ids := by
  rw [inOrder_eq rows ids fun _ _ _ => Iff.rfl, inOrder_eq found ids fun _ _ _ => Iff.rfl]
  exact List.filterMap_congr fun id _ => find?_key_of_perm hids hperm id

/-- The rows in a map, each under its identifier. -/
def byId (rows : List Post) : Std.HashMap String Post :=
  .ofList (rows.map fun p => (p.id, p))

/-- The walk over the identifiers where each post is taken out of the map as it is shown. -/
def takeOut : Std.HashMap String Post → List String → List Post
  | _, [] => []
  | posts, id :: ids =>
    match posts[id]? with
    | some p => p :: takeOut (posts.erase id) ids
    | none => takeOut posts ids

theorem getElem?_byId (hids : (rows.map Post.id).Nodup) (id : String) :
    (byId rows)[id]? = rows.find? fun p => p.id = id := by
  have hapart : (rows.map fun p => (p.id, p)).Pairwise fun a b => (a.1 == b.1) = false := by
    rw [List.pairwise_map]
    refine (List.pairwise_map.1 hids).imp ?_
    intro p q hne
    exact beq_eq_false_iff_ne.2 hne
  cases hp : rows.find? fun p => p.id = id with
  | some p =>
    obtain ⟨hmem, hid⟩ := (find?_key_eq_some hids).1 hp
    refine Std.HashMap.getElem?_ofList_of_mem (beq_self_eq_true id) hapart ?_
    exact List.mem_map.2 ⟨p, hmem, by rw [hid]⟩
  | none =>
    refine Std.HashMap.getElem?_ofList_of_contains_eq_false ?_
    simpa using hp

/-- The identifiers that are taken are those that are out of the map. -/
theorem takeOut_eq {posts : Std.HashMap String Post} {taken : List String} (ids : List String)
    (h : ∀ id, posts[id]? = if id ∈ taken then none else rows.find? fun p => p.id = id) :
    takeOut posts ids = inOrder rows taken ids := by
  induction ids generalizing posts taken with
  | nil => rfl
  | cons id rest ih =>
    simp only [takeOut, inOrder, h id, List.contains_iff_mem]
    by_cases hid : id ∈ taken
    · rw [if_pos hid, if_pos hid]
      exact ih h
    · rw [if_neg hid, if_neg hid]
      cases hp : rows.find? fun p => p.id = id with
      | none => exact ih h
      | some p =>
        refine congrArg (p :: ·) (ih fun other => ?_)
        rw [Std.HashMap.getElem?_erase, h other]
        by_cases hother : id = other
        · subst hother
          simp
        · simp [hother, Ne.symm hother]

theorem takeOut_byId (hids : (rows.map Post.id).Nodup) (ids : List String) :
    takeOut (byId rows) ids = inOrder rows [] ids := by
  refine takeOut_eq ids ?_
  intro id
  rw [getElem?_byId hids, if_neg List.not_mem_nil]

/-! ## The posts of the identifiers -/

/-- The rows that the statement shows may come in any order. -/
theorem inOrder_answered (hids : (s.posts.map Post.id).Nodup) (ids : List String)
    (hperm : rows.Perm (s.posts.filter fun p => p.id ∈ ids)) :
    inOrder rows [] ids = (Value.distinct ids).filterMap s.post? ∧
      takeOut (byId rows) ids = (Value.distinct ids).filterMap s.post? := by
  have hfound : ((s.posts.filter fun p => p.id ∈ ids).map Post.id).Nodup :=
    hids.sublist (List.filter_sublist.map _)
  have hrows : (rows.map Post.id).Nodup := (hperm.map _).nodup_iff.2 hfound
  have hwalk : inOrder rows [] ids = (Value.distinct ids).filterMap s.post? :=
    (inOrder_of_perm hfound hperm ids).trans (inOrder_found ids)
  exact ⟨hwalk, (takeOut_byId hrows ids).trans hwalk⟩

/-- Unless there are too many identifiers, their posts are shown, and those alone: each once, in the
order in which the identifiers first come, and in whatever order the statement shows the rows. -/
theorem getAll_exact (hids : (s.posts.map Post.id).Nodup) (ids : List String) :
    (maxParams < ids.length →
      getAll s ids = .error (.storage (.tooManyParams ids.length) "get posts by ids")) ∧
    (ids.length ≤ maxParams →
      ∃ posts, getAll s ids = .ok posts ∧ s.PostsFor ids posts ∧
        (∀ others, s.PostsFor ids others → others = posts) ∧
        ∃ found, query "get posts by ids" s.posts (Statement.Posts.byIds ids) = .ok found ∧
          ∀ rows : List Post, rows.Perm found →
            inOrder rows [] ids = posts ∧ takeOut (byId rows) ids = posts) := by
  have hgetAll := getAll_eq_distinct (s := s) ids
  have hquery : query "get posts by ids" s.posts (Statement.Posts.byIds ids) = Refusal.ofStorage "get posts by ids" _ :=
    congrArg (Refusal.ofStorage "get posts by ids") (on_byIds ids s.posts)
  constructor
  · intro hmany
    rw [hgetAll, if_pos hmany]
  · intro hfew
    rw [if_neg (Nat.not_lt.2 hfew)] at hgetAll hquery
    have hposts := postsFor_distinct hids ids
    refine ⟨_, hgetAll, hposts, fun _ hothers => hothers.unique hposts, _, hquery, ?_⟩
    intro rows hperm
    exact inOrder_answered hids ids hperm

/-- A post of a channel, told by its identifier and its time. -/
def townPost (id : String) (createdAt : Int64) : Post :=
  ⟨id, "c", "u", "", "", createdAt⟩

def threePosts : Store where
  posts := [townPost "p1" 0, townPost "p2" 1, townPost "p3" 2]

/-- Of four identifiers one is not known and one comes again. -/
theorem third_post_comes_first :
    (threePosts.posts.map Post.id).Nodup ∧ 4 ≤ maxParams ∧
      getAll threePosts ["p3", "missing", "p1", "p3"] = .ok [townPost "p3" 2, townPost "p1" 0] ∧
      ∀ rows : List Post, rows.Perm [townPost "p1" 0, townPost "p3" 2] →
        inOrder rows [] ["p3", "missing", "p1", "p3"] = [townPost "p3" 2, townPost "p1" 0] ∧
        takeOut (byId rows) ["p3", "missing", "p1", "p3"] =
          [townPost "p3" 2, townPost "p1" 0] := by
  have hids : (threePosts.posts.map Post.id).Nodup := by decide
  have hfew : 4 ≤ maxParams := by decide
  obtain ⟨posts, hgetAll, _, hunique, found, hfound, hrows⟩ :=
    (getAll_exact hids ["p3", "missing", "p1", "p3"]).2 hfew
  have hposts : threePosts.PostsFor ["p3", "missing", "p1", "p3"]
      [townPost "p3" 2, townPost "p1" 0] := by
    refine ⟨?_, ?_⟩
    · intro p
      simp only [threePosts, List.mem_cons, List.not_mem_nil, or_false]
      constructor
      · rintro (rfl | rfl) <;> simp [townPost]
      · rintro ⟨rfl | rfl | rfl, hid⟩ <;> simp [townPost] at hid ⊢
    · rw [Value.AsFirstSeen]
      decide
  have hshown : query "get posts by ids" threePosts.posts (Statement.Posts.byIds ["p3", "missing", "p1", "p3"]) =
      .ok [townPost "p1" 0, townPost "p3" 2] := by
    rw [query, on_byIds]
    decide
  cases hunique _ hposts
  cases hfound.symm.trans hshown
  exact ⟨hids, hfew, hgetAll, hrows⟩

/-- One post is asked for 32767 times: the values are too many for a statement, though one post would
be the answer. -/
theorem repeated_identifier_refused :
    ¬∀ (s : Store) (ids : List String), (s.posts.map Post.id).Nodup →
      ∃ posts, getAll s ids = .ok posts ∧ s.PostsFor ids posts := by
  intro hall
  obtain ⟨posts, hposts, _⟩ := hall threePosts (List.replicate 32767 "p1") (by decide)
  have hmany : maxParams < (List.replicate 32767 "p1").length := by
    rw [List.length_replicate]
    decide
  rw [getAll_eq_distinct, if_pos hmany] at hposts
  cases hposts

end Posts
end PropertyBoard
