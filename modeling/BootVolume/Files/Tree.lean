import BootVolume.Files.Listing

/-!
# File trees

A file tree is a directory with everything below it. Seen from outside it is a finite map from
places to entries (`get?`) in which the root is a directory and everything else lies in one. `put`
adds or replaces an entry, `erase` takes one away with all below it, and `clear` empties a
directory. Trees with the same entries are equal (`ext_get?`).
-/

namespace BootVolume

inductive Entry where
  | file (content : Bytes) (executable : Bool)
  | link (target : Path)
  | dir
  deriving DecidableEq

/-- An entry with everything below it. -/
inductive Node where
  | file (content : Bytes) (executable : Bool)
  | link (target : Path)
  | dir (entries : List (Name × Node))

/-- The node of an entry that holds nothing. -/
def Entry.node : Entry → Node
  | file content executable => .file content executable
  | link target => .link target
  | dir => .dir []

namespace Node

def entry : Node → Entry
  | file content executable => .file content executable
  | link target => .link target
  | dir _ => .dir

@[simp] theorem entry_node (e : Entry) : e.node.entry = e := by cases e <;> rfl

def entries : Node → List (Name × Node)
  | dir entries => entries
  | file _ _ => []
  | link _ => []

def at? : Node → Place → Option Node
  | node, [] => some node
  | node, name :: rest => (Listing.lookup name node.entries).bind (·.at? rest)

/-- The node with another listing for the directory at a place; the same node if there is none. -/
def within (change : List (Name × Node) → List (Name × Node)) : Place → Node → Node
  | [], dir entries => dir (change entries)
  | name :: rest, dir entries =>
    match Listing.lookup name entries with
    | some child => dir (Listing.insert name (child.within change rest) entries)
    | none => dir entries
  | _, node => node

/-- Every directory is listed in order. -/
inductive Ordered : Node → Prop
  | file (content : Bytes) (executable : Bool) : Ordered (.file content executable)
  | link (target : Path) : Ordered (.link target)
  | dir {entries : List (Name × Node)} : Listing.Ordered entries → (∀ x ∈ entries, Ordered x.2) →
    Ordered (.dir entries)

theorem ordered_node (e : Entry) : e.node.Ordered := by
  cases e with
  | file content executable => exact .file content executable
  | link target => exact .link target
  | dir => exact .dir List.Pairwise.nil (by simp)

variable {change : List (Name × Node) → List (Name × Node)}

@[simp] theorem entry_within (p : Place) (n : Node) : (n.within change p).entry = n.entry := by
  cases n with
  | file | link => cases p <;> rfl
  | dir entries =>
    cases p with
    | nil => rfl
    | cons name rest =>
      rw [within]
      cases Listing.lookup name entries <;> rfl

theorem ordered_within (keeps : ∀ {entries}, Ordered (dir entries) → Ordered (dir (change entries)))
    {n : Node} (h : n.Ordered) (p : Place) : (n.within change p).Ordered := by
  induction p generalizing n with
  | nil =>
    cases h with
    | file => exact .file ..
    | link => exact .link ..
    | dir listed below => exact keeps (.dir listed below)
  | cons name rest ih =>
    cases h with
    | file => exact .file ..
    | link => exact .link ..
    | dir listed below =>
      rw [within]
      split
      · rename_i child hc
        refine .dir (Listing.ordered_insert listed) fun x hx => ?_
        rcases Listing.mem_insert hx with rfl | hx
        · exact ih (below _ (Listing.mem_of_lookup hc))
        · exact below x hx
      · exact .dir listed below

/-- What is seen at a place below. -/
def get? (n : Node) (p : Place) : Option Entry := (n.at? p).map entry

@[simp] theorem get?_nil (n : Node) : n.get? [] = some n.entry := rfl

theorem get?_cons (n : Node) (name : Name) (rest : Place) :
    n.get? (name :: rest) = (Listing.lookup name n.entries).bind (·.get? rest) := by
  simp only [get?, at?]
  cases Listing.lookup name n.entries <;> rfl

theorem get?_append {n : Node} {p q : Place} :
    n.get? (p ++ q) = (n.at? p).bind (·.get? q) := by
  induction p generalizing n with
  | nil => rfl
  | cons name rest ih =>
    rw [List.cons_append, get?_cons, at?]
    cases Listing.lookup name n.entries with
    | none => rfl
    | some child => exact ih

/-- There is nothing below what is no directory. -/
theorem get?_below_of_ne_dir {n : Node} {p : Place} (h : n.get? p ≠ some .dir) (name : Name)
    (q : Place) : n.get? (p ++ name :: q) = none := by
  rw [get?_append]
  rw [get?] at h
  cases hn : n.at? p with
  | none => rfl
  | some m =>
    cases m with
    | file | link => rfl
    | dir => simp [hn, entry] at h

theorem get?_node_cons (e : Entry) (name : Name) (q : Place) : e.node.get? (name :: q) = none := by
  cases e <;> rfl

/-- Below a directory with another listing everything is as that says. -/
theorem get?_within_below {n : Node} {p : Place} (h : n.get? p = some .dir) (name : Name)
    (q : Place) : (n.within change p).get? (p ++ name :: q) =
      (Listing.lookup name (change ((n.at? p).elim [] entries))).bind (·.get? q) := by
  induction p generalizing n with
  | nil =>
    cases n with
    | file | link => simp [entry] at h
    | dir listed => rw [List.nil_append, within, get?_cons]; rfl
  | cons first rest ih =>
    cases n with
    | file | link => simp [get?, at?, entries, Listing.lookup] at h
    | dir listed =>
      rw [get?_cons] at h
      rw [List.cons_append, within, at?]
      simp only [entries] at h ⊢
      cases hc : Listing.lookup first listed with
      | none => simp [hc] at h
      | some child =>
        rw [hc] at h
        simpa [get?_cons, entries, Listing.lookup_insert] using ih h

/-- Everywhere else nothing changes. -/
theorem get?_within_of_not_below {n : Node} {p q : Place}
    (h : n.get? p = some .dir → ∀ name rest, q ≠ p ++ name :: rest) :
    (n.within change p).get? q = n.get? q := by
  induction p generalizing n q with
  | nil =>
    cases n with
    | file | link => rfl
    | dir listed =>
      cases q with
      | nil => rfl
      | cons name rest => exact absurd rfl (h rfl name rest)
  | cons first rest ih =>
    cases n with
    | file | link => rfl
    | dir listed =>
      rw [within]
      cases hc : Listing.lookup first listed with
      | none => rfl
      | some child =>
        cases q with
        | nil => rfl
        | cons name others =>
          simp only [get?_cons, entries, Listing.lookup_insert]
          split
          · rename_i hn
            subst hn
            rw [hc]
            refine ih fun hd name rest he => ?_
            exact h (by rw [get?_cons, entries, hc]; exact hd) name rest (by rw [he]; rfl)
          · rfl

theorem eq_of_get? {a b : Node} (ha : a.Ordered) (hb : b.Ordered)
    (h : ∀ p, a.get? p = b.get? p) : a = b := by
  induction ha generalizing b with
  | file | link =>
    have h := h []
    cases b <;> simp only [get?_nil, entry, Option.some.injEq] at h <;> cases h
    rfl
  | dir listed below ih =>
    cases hb with
    | file | link =>
      have h := h []
      simp [entry] at h
    | dir listed' below' =>
      congr 1
      refine Listing.eq_of_lookup listed listed' fun name => ?_
      have h p := h (name :: p)
      simp only [get?_cons, entries] at h
      cases hc : Listing.lookup name _ with
      | none =>
        cases hd : Listing.lookup name _ with
        | none => rfl
        | some d => simpa [hc, hd] using h []
      | some c =>
        cases hd : Listing.lookup name _ with
        | none => simpa [hc, hd] using h []
        | some d =>
          congr 1
          exact ih _ (Listing.mem_of_lookup hc) (below' _ (Listing.mem_of_lookup hd))
            fun p => by simpa [hc, hd] using h p

/-- Everything below with its place, in order; `here` is the place of the node. -/
def list (here : Place) : Node → List (Place × Entry)
  | file content executable => [(here, .file content executable)]
  | link target => [(here, .link target)]
  | dir entries => (here, .dir) :: listAll here entries
where
  listAll (here : Place) : List (Name × Node) → List (Place × Entry)
    | [] => []
    | (name, node) :: rest => node.list (here ++ [name]) ++ listAll here rest

end Node

/-- A directory with everything below it. Of the rights to a file only that to run it is kept, and
nothing is refused for want of another. A file has one name: there are no hard links. -/
structure FileTree where
  root : Node
  rooted : root.entry = .dir
  ordered : root.Ordered

namespace FileTree

def get? (t : FileTree) (place : Place) : Option Entry := t.root.get? place

@[simp] theorem get?_root (t : FileTree) : t.get? [] = some .dir := by
  rw [get?, Node.get?_nil, t.rooted]

theorem ext_get? {t u : FileTree} (h : ∀ place, t.get? place = u.get? place) : t = u := by
  have := Node.eq_of_get? t.ordered u.ordered h
  cases t; cases u; simp_all

theorem get?_dropLast {t : FileTree} {place : Place} (hp : place ≠ [])
    (h : t.get? place ≠ none) : t.get? place.dropLast = some .dir := by
  by_cases hd : t.get? place.dropLast = some .dir
  · exact hd
  · refine absurd ?_ h
    rw [← List.dropLast_concat_getLast hp]
    exact Node.get?_below_of_ne_dir hd _ []

/-- The tree that holds nothing but its root. -/
def empty : FileTree where
  root := .dir []
  rooted := rfl
  ordered := .dir List.Pairwise.nil (by simp)

instance : Inhabited FileTree := ⟨empty⟩

/-- The tree with another listing for the directory at a place. -/
def within (t : FileTree) (place : Place) (change : List (Name × Node) → List (Name × Node))
    (keeps : ∀ {entries}, (Node.dir entries).Ordered → (Node.dir (change entries)).Ordered) :
    FileTree where
  root := t.root.within change place
  rooted := by rw [Node.entry_within, t.rooted]
  ordered := Node.ordered_within keeps t.ordered place

/-- The tree with a node under a name in a directory. -/
def insert (t : FileTree) (dir : Place) (name : Name) (entry : Entry) : FileTree :=
  t.within dir (Listing.insert name entry.node) fun h => by
    cases h with
    | dir listed below =>
      refine .dir (Listing.ordered_insert listed) fun x hx => ?_
      rcases Listing.mem_insert hx with rfl | hx
      · exact Node.ordered_node entry
      · exact below x hx

theorem get?_insert {t : FileTree} {dir : Place} (h : t.get? dir = some .dir) {name : Name}
    {entry : Entry} (hn : t.get? (dir ++ [name]) ≠ some .dir) (q : Place) :
    (t.insert dir name entry).get? q = if q = dir ++ [name] then some entry else t.get? q := by
  by_cases hq : ∃ other rest, q = dir ++ other :: rest
  · obtain ⟨other, rest, rfl⟩ := hq
    rw [insert, get?, within, Node.get?_within_below h, Listing.lookup_insert]
    by_cases ho : other = name
    · subst ho
      cases rest with
      | nil => simp
      | cons next rest =>
        have none := Node.get?_below_of_ne_dir hn next rest
        simp only [List.append_assoc, List.singleton_append] at none
        simp [Node.get?_node_cons, get?, none]
    · rw [if_neg ho, if_neg (by simp [ho]), get?, Node.get?_append]
      cases t.root.at? dir <;> simp [Node.get?_cons, Listing.lookup]
  · rw [if_neg fun he => hq ⟨name, [], he⟩]
    exact Node.get?_within_of_not_below fun _ other rest he => hq ⟨other, rest, he⟩

/-- Whether an entry may be put at a place: below a directory, and in the place of one only if it
is one itself. -/
def Admits (t : FileTree) (place : Place) (entry : Entry) : Prop :=
  place ≠ [] ∧ t.get? place.dropLast = some .dir ∧
    (t.get? place = some .dir → entry = .dir)

instance (t : FileTree) (place : Place) (entry : Entry) : Decidable (t.Admits place entry) :=
  inferInstanceAs (Decidable (_ ∧ _ ∧ (_ → _)))

/-- The tree with an entry at a place; the same tree if the place does not admit it. -/
def put (t : FileTree) (place : Place) (entry : Entry) : FileTree :=
  if h : t.Admits place entry then
    if t.get? place = some .dir then t else t.insert place.dropLast (place.getLast h.1) entry
  else t

theorem get?_put {t : FileTree} {place : Place} {entry : Entry} (h : t.Admits place entry)
    (q : Place) : (t.put place entry).get? q = if q = place then some entry else t.get? q := by
  rw [put, dif_pos h]
  split
  · rename_i hd
    split
    · rename_i hq
      rw [hq, hd, h.2.2 hd]
    · rfl
  · rename_i hd
    rw [get?_insert h.2.1 (by rwa [List.dropLast_concat_getLast])]
    rw [List.dropLast_concat_getLast]

/-- The tree without a place and all below it; the root stays. -/
def erase (t : FileTree) (place : Place) : FileTree :=
  match place.getLast? with
  | none => t
  | some name =>
    t.within place.dropLast (Listing.remove name) fun h => by
      cases h with
      | dir listed below =>
        exact .dir (Listing.ordered_remove listed) fun x hx =>
          below x (Listing.mem_of_mem_remove hx)

theorem get?_erase (t : FileTree) {place : Place} (h : place ≠ []) (q : Place) :
    (t.erase place).get? q = if place.isPrefixOf q then none else t.get? q := by
  obtain ⟨dir, name, rfl⟩ : ∃ dir name, place = dir ++ [name] :=
    ⟨_, _, (List.dropLast_concat_getLast h).symm⟩
  have erased : (t.erase (dir ++ [name])).get? q =
      (t.root.within (Listing.remove name) dir).get? q := by
    simp [erase, within, get?]
  rw [erased]
  by_cases hd : t.get? dir = some .dir ∧ ∃ other rest, q = dir ++ other :: rest
  · obtain ⟨hd, other, rest, rfl⟩ := hd
    rw [Node.get?_within_below hd, Listing.lookup_remove]
    by_cases ho : other = name
    · simp [ho, List.isPrefixOf_iff_prefix]
    · rw [if_neg ho, if_neg (by simp [List.isPrefixOf_iff_prefix, Ne.symm ho]), get?,
        Node.get?_append]
      cases t.root.at? dir <;> simp [Node.get?_cons, Listing.lookup]
  · rw [Node.get?_within_of_not_below fun hdir other rest he => hd ⟨hdir, other, rest, he⟩]
    split
    · rename_i hp
      obtain ⟨rest, rfl⟩ := List.isPrefixOf_iff_prefix.1 hp
      rw [List.append_assoc, List.singleton_append]
      exact Node.get?_below_of_ne_dir (fun hdir => hd ⟨hdir, name, rest, by simp⟩) name rest
    · rfl

/-- The tree without anything below a place. -/
def clear (t : FileTree) (place : Place) : FileTree :=
  t.within place (fun _ => []) fun _ => .dir List.Pairwise.nil (by simp)

theorem get?_clear (t : FileTree) (place q : Place) :
    (t.clear place).get? q = if place.isPrefixOf q ∧ q ≠ place then none else t.get? q := by
  rw [clear, within, get?]
  by_cases hd : t.get? place = some .dir ∧ ∃ other rest, q = place ++ other :: rest
  · obtain ⟨hd, other, rest, rfl⟩ := hd
    rw [Node.get?_within_below hd]
    simp [Listing.lookup, List.isPrefixOf_iff_prefix]
  · rw [Node.get?_within_of_not_below fun hdir other rest he => hd ⟨hdir, other, rest, he⟩]
    split
    · rename_i hp
      obtain ⟨rest, rfl⟩ := List.isPrefixOf_iff_prefix.1 hp.1
      cases rest with
      | nil => simp at hp
      | cons other rest =>
        exact Node.get?_below_of_ne_dir (fun hdir => hd ⟨hdir, other, rest, rfl⟩) other rest
    · rfl

/-- The names of the entries directly in a directory, in their order. -/
def children (t : FileTree) (place : Place) : List Name :=
  ((t.root.at? place).elim [] Node.entries).map (·.1)

theorem mem_children {t : FileTree} {place : Place} {name : Name} :
    name ∈ t.children place ↔ t.get? (place ++ [name]) ≠ none := by
  rw [children, get?, Node.get?_append]
  cases t.root.at? place with
  | none => simp
  | some n =>
    rw [Option.elim, ← Listing.lookup_ne_none_iff, Option.bind_some, Node.get?_cons]
    cases Listing.lookup name n.entries <;> simp

/-- The entries that differ below a place, each as it is in the second tree. -/
def changes (before after : FileTree) (below : Place) : List (Place × Option Entry) :=
  let gone := (before.root.list []).filterMap fun x =>
    if (after.get? x.1).isNone then some (x.1, none) else none
  let new := (after.root.list []).filterMap fun x =>
    if before.get? x.1 = some x.2 then none else some (x.1, some x.2)
  (gone ++ new).filter fun x => below.isPrefixOf x.1 && x.1 ≠ below

end FileTree
end BootVolume
