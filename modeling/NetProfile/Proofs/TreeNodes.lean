import NetProfile.Proofs.TreeScanning
import NetProfile.Yaml.Node.OfTokens

/-!
# Reading the nodes of mapping trees

From the tokens of a mapping tree the tree of nodes is built again, without marks. The
fuel of a builder is enough for it, because every level of calls but every second one
has taken a token.

## Main definitions

- `Content.node`, `MappingTree.nodes` — the nodes of a tree

## Main results

- `Builder.blockEntries_entryTokens` — the entries of a mapping
- `MappingTree.readFirst_print` — a whole document
-/

namespace NetProfile

namespace Yaml

/-- The node of a scalar. -/
def Scalar.node (s : Scalar) : Node := .scalar {} s.text s.isBare

mutual

/-- The node of a value. -/
def Content.node : Content → Node
  | .scalar s => s.node
  | .mapping t => .mapping {} (MappingTree.nodes t)

/-- The nodes of the entries of a mapping. -/
def MappingTree.nodes : MappingTree → List (Node × Node)
  | [] => []
  | (k, c) :: rest => (k.node, c.node) :: MappingTree.nodes rest

end

namespace Builder

section Steps

variable {fuel : Nat} {place : Place} {b : Builder} {rest : List Token}

theorem node_scalar {text : String} {plain : Bool} (h : b.tokens = .scalar text plain :: rest) :
    node (fuel + 1) place b = (.scalar {} text plain, { b with tokens := rest }) := by
  rcases b with ⟨tokens, stop, anchors, handles⟩
  obtain rfl : tokens = _ := h
  rfl

theorem node_emptyMapping (h : b.tokens = .flowMappingStart :: .flowMappingEnd :: rest) :
    node (fuel + 2) place b = (.mapping {} [], { b with tokens := rest }) := by
  rcases b with ⟨tokens, stop, anchors, handles⟩
  obtain rfl : tokens = _ := h
  rfl

theorem node_blockMapping (hplace : place ≠ .flow) (h : b.tokens = .blockMappingStart :: rest) :
    node (fuel + 1) place b =
      (.mapping {} (blockEntries fuel { b with tokens := rest }).1,
        (blockEntries fuel { b with tokens := rest }).2) := by
  rcases b with ⟨tokens, stop, anchors, handles⟩
  obtain rfl : tokens = _ := h
  cases place with
  | block => rfl
  | blockEntry => rfl
  | flow => exact absurd rfl hplace

theorem blockEntries_end (h : b.tokens = .blockEnd :: rest) :
    blockEntries (fuel + 1) b = ([], { b with tokens := rest }) := by
  rcases b with ⟨tokens, stop, anchors, handles⟩
  obtain rfl : tokens = _ := h
  rfl

/-- An entry of a mapping whose key is a scalar. -/
theorem blockEntries_key {k : Scalar}
    (h : b.tokens = .key :: .scalar k.text k.isBare :: .value :: rest)
    (hrest : rest.head?.any endsBlockNode = false) {v : Node} {b' : Builder}
    (hv : node fuel .blockEntry { b with tokens := rest } = (v, b')) :
    blockEntries (fuel + 2) b =
      ((k.node, v) :: (blockEntries (fuel + 1) b').1, (blockEntries (fuel + 1) b').2) := by
  rcases b with ⟨tokens, stop, anchors, handles⟩
  obtain rfl : tokens = _ := h
  have hvalue : blockValue (fuel + 1) ⟨.value :: rest, stop, anchors, handles⟩ = (v, b') := by
    show (if rest.head?.any endsBlockNode = true then _ else
      node fuel .blockEntry ⟨rest, stop, anchors, handles⟩) = _
    rw [hrest, if_neg Bool.false_ne_true]
    exact hv
  have hentries : blockEntries (fuel + 2) ⟨.key :: .scalar k.text k.isBare :: .value :: rest, stop,
      anchors, handles⟩ =
      ((k.node, (blockValue (fuel + 1) ⟨.value :: rest, stop, anchors, handles⟩).1) ::
        (blockEntries (fuel + 1)
          (blockValue (fuel + 1) ⟨.value :: rest, stop, anchors, handles⟩).2).1,
        (blockEntries (fuel + 1)
          (blockValue (fuel + 1) ⟨.value :: rest, stop, anchors, handles⟩).2).2) := rfl
  rw [hentries, hvalue]

end Steps

theorem endsBlockNode_head_tokens (c : Content) (more : List Token) :
    (c.tokens ++ more).head?.any endsBlockNode = false := by
  rcases c with s | _ | ⟨entry, rest⟩
  · rfl
  · rfl
  · rfl

/-- The entries of a mapping are read up to its end, with the fuel for its tokens. -/
def BuildsEntries (t : MappingTree) : Prop :=
  ∀ {fuel : Nat} {b : Builder} {more : List Token},
    2 * (MappingTree.entryTokens t).length + 1 ≤ fuel →
    b.tokens = MappingTree.entryTokens t ++ .blockEnd :: more →
    blockEntries fuel b = (MappingTree.nodes t, { b with tokens := more })

/-- A mapping is read if its entries are. -/
theorem BuildsEntries.node {t : MappingTree} (h : BuildsEntries t) {fuel : Nat} {b : Builder}
    {place : Place} {more : List Token} (hplace : place ≠ .flow)
    (hfuel : 2 * (Content.mapping t).tokens.length ≤ fuel)
    (hb : b.tokens = (Content.mapping t).tokens ++ more) :
    Builder.node fuel place b = ((Content.mapping t).node, { b with tokens := more }) := by
  rcases t with _ | ⟨entry, rest⟩
  · obtain ⟨fuel, rfl⟩ : ∃ n, fuel = n + 2 :=
      Nat.exists_eq_add_of_le' (Nat.le_trans (by decide) hfuel)
    exact node_emptyMapping hb
  · have hlength : (Content.mapping (entry :: rest)).tokens.length =
        (MappingTree.entryTokens (entry :: rest)).length + 2 := by
      simp [Content.tokens]
    rw [hlength] at hfuel
    obtain ⟨fuel, rfl⟩ : ∃ n, fuel = n + 1 := Nat.exists_eq_add_of_le' (by omega)
    have hb' : b.tokens = .blockMappingStart ::
        (MappingTree.entryTokens (entry :: rest) ++ .blockEnd :: more) := by
      rw [hb, Content.tokens]
      simp
    rw [node_blockMapping hplace hb', @h fuel { b with tokens := MappingTree.entryTokens (entry :: rest) ++ .blockEnd :: more } more
      (by omega) rfl]
    rfl

/-- An entry is read if its value and the entries behind it are. -/
theorem BuildsEntries.cons {k : Scalar} {c : Content} {rest : MappingTree}
    (hrest : BuildsEntries rest)
    (hc : ∀ {fuel : Nat} {b : Builder} {more : List Token}, 2 * c.tokens.length ≤ fuel →
      b.tokens = c.tokens ++ more →
      Builder.node fuel .blockEntry b = (c.node, { b with tokens := more })) :
    BuildsEntries ((k, c) :: rest) := by
  intro fuel b more hfuel hb
  have hlength : (MappingTree.entryTokens ((k, c) :: rest)).length =
      c.tokens.length + (MappingTree.entryTokens rest).length + 3 := by
    simp [MappingTree.entryTokens]
  rw [hlength] at hfuel
  obtain ⟨fuel, rfl⟩ : ∃ n, fuel = n + 2 := Nat.exists_eq_add_of_le' (by omega)
  have hb' : b.tokens = .key :: .scalar k.text k.isBare :: .value ::
      (c.tokens ++ (MappingTree.entryTokens rest ++ .blockEnd :: more)) := by
    rw [hb, MappingTree.entryTokens]
    simp
  let behind := MappingTree.entryTokens rest ++ .blockEnd :: more
  have hvalue := @hc fuel { b with tokens := c.tokens ++ behind } behind (by omega) rfl
  have hentries := @hrest (fuel + 1) { b with tokens := behind } more (by omega) rfl
  rw [blockEntries_key hb' (endsBlockNode_head_tokens c _) hvalue, hentries]
  rfl

/-- The entries of every mapping are read. -/
theorem blockEntries_entryTokens (t : MappingTree) : BuildsEntries t := by
  induction t using MappingTree.induction with
  | nil =>
    intro fuel b more hfuel hb
    obtain ⟨fuel, rfl⟩ : ∃ n, fuel = n + 1 := Nat.exists_eq_add_of_le' hfuel
    exact blockEntries_end hb
  | scalar k v rest ih =>
    refine ih.cons ?_
    intro fuel b more hfuel hb
    obtain ⟨fuel, rfl⟩ : ∃ n, fuel = n + 1 :=
      Nat.exists_eq_add_of_le' (Nat.le_trans (by simp [Content.tokens]) hfuel)
    exact node_scalar hb
  | mapping k t rest iht ih =>
    refine ih.cons ?_
    intro fuel b more hfuel hb
    exact iht.node (by decide) hfuel hb

end Builder

/-- Reading a document of a tree gives the nodes of the tree, and nothing follows. -/
theorem MappingTree.readFirst_print {t : MappingTree} (hne : t ≠ [])
    (h : t.Every Scalar.IsKey Scalar.Clean)
    (hstart : ∀ entry ∈ t, entry.1.BeginsLine) :
    readFirst t.print =
      { document := some (.ofRoot (Content.mapping t).node), failure := none, hasMore := false } := by
  have htokens := tokens_print hne h hstart
  have hcontent := Content.tokens_mapping hne
  have hstream : tokens t.print.toList = { tokens := (Content.mapping t).tokens ++ [.streamEnd] } := by
    rw [htokens, hcontent]
    simp
  let start : Builder :=
    { tokens := (Content.mapping t).tokens ++ [.streamEnd], handles := Builder.defaultHandles }
  have hroot : Builder.node start.fuel .block start =
      ((Content.mapping t).node, { start with tokens := [.streamEnd] }) :=
    Builder.BuildsEntries.node (@Builder.blockEntries_entryTokens t) (by decide)
      (by simp [Builder.fuel, start]; omega) rfl
  have hfirst : Builder.firstDocument { tokens := (Content.mapping t).tokens ++ [.streamEnd] } =
      (some (Content.mapping t).node, { start with tokens := [.streamEnd] }) := by
    have hgo : Builder.firstDocument { tokens := (Content.mapping t).tokens ++ [.streamEnd] } =
        (some (Builder.node start.fuel .block start).1,
          (Builder.node start.fuel .block start).2) := by
      simp only [start, hcontent]
      rfl
    rw [hgo, hroot]
  rw [readFirst, hstream]
  simp only [hfirst]
  rfl

end Yaml

end NetProfile
