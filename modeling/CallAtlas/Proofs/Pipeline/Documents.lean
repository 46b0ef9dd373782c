import CallAtlas.Pipeline
import CallAtlas.Proofs.Graph.ClosingEdges
import CallAtlas.Proofs.Graph.Edges
import CallAtlas.Proofs.Json.RoundTrip
import CallAtlas.Proofs.Ordered.Extensionality
/-!
# Documents carry what was written

Reading a document of graphs or a list of cycles gives back what was written, whatever the names are.
The graphs are those from which the document was made, keys without successors included, and the
cycles that a search finds pass for cycles.
-/

namespace CallAtlas

open Json

/-! ### Documents of graphs -/

namespace GraphDocument

/-- A document as JSON. -/
def toJson (d : GraphDocument) : Json :=
  .object [("call_graph", rowsJson d.callGraph), ("import_graph", rowsJson d.importGraph)]

theorem readRows_inverts : Inverts readRows rowsJson := by
  intro rows level blanks rest hblanks
  have hpairs := readMap_inverts (readList_inverts readString_inverts) rows.entries level blanks
    rest hblanks
  have hrows := hpairs.bind (f := fun pairs => pure (OrderedMap.ofList pairs)) (.pure _ rest)
  rwa [OrderedMap.ofList_entries] at hrows

section Members
variable (rows : OrderedMap String (List String)) (level : Nat) (rest : List Char)

theorem reads_readMember_callGraph :
    Reads (readMember (none, none) "call_graph")
      (':' :: ' ' :: ((rowsJson rows).prettyChars level ++ rest)) (some rows, none) rest := by
  apply (reads_readColon _).bind
  exact (readRows_inverts rows level [' '] rest (allBlank_singleton rfl)).bind (.pure _ rest)

theorem reads_readMember_importGraph (calls : OrderedMap String (List String)) :
    Reads (readMember (some calls, none) "import_graph")
      (':' :: ' ' :: ((rowsJson rows).prettyChars level ++ rest)) (some calls, some rows)
      rest := by
  apply (reads_readColon _).bind
  exact (readRows_inverts rows level [' '] rest (allBlank_singleton rfl)).bind (.pure _ rest)

end Members

/-- What is printed between the braces of a document. -/
def membersChars (d : GraphDocument) (level : Nat) : List Char :=
  newline (level + 1) ++ quote "call_graph" ++ [':', ' '] ++
    (rowsJson d.callGraph).prettyChars (level + 1) ++
    prettyMembers (level + 1) [("import_graph", rowsJson d.importGraph)] ++ newline level

theorem reads_readMembers (d : GraphDocument) (fuel level : Nat) (rest : List Char) :
    Reads (readMembers readMember (fuel + 3) true (none, none))
      (d.membersChars level ++ '\x7d' :: rest) (some d.callGraph, some d.importGraph)
      ('\x7d' :: rest) := by
  simp only [membersChars, prettyMembers, List.cons_append, List.append_assoc, List.nil_append]
  apply reads_readMembers_step (reads_moreMembers_first (allBlank_newline (level + 1)) _)
    (reads_readMember_callGraph _ _ _)
  apply reads_readMembers_step (reads_moreMembers_next (allBlank_newline (level + 1)) _)
    (reads_readMember_importGraph _ _ _ _)
  exact reads_readMembers_end (allBlank_newline level) (Nat.succ_pos fuel) rest

theorem reader_inverts : Inverts reader toJson := by
  intro d level blanks rest hblanks
  have hprinted : (toJson d).prettyChars level ++ rest =
      '\x7b' :: (d.membersChars level ++ '\x7d' :: rest) := by
    simp [toJson, prettyChars, membersChars]
  rw [hprinted]
  apply (reads_peekValue hblanks (by decide) _).bind
  apply (Reads.skip '\x7b' _).bind
  apply Reads.located
  refine Reads.thenEnd ?_ (reads_endObject rest)
  apply (Reads.remaining _).bind
  obtain ⟨fuel, hfuel⟩ : ∃ fuel, (d.membersChars level ++ '\x7d' :: rest).length + 1 = fuel + 3 := by
    refine ⟨_, (Nat.sub_add_cancel ?_).symm⟩
    simp only [membersChars, newline, List.length_append, List.length_cons]
    omega
  rw [hfuel]
  exact (reads_readMembers d fuel level rest).bind (.pure _ _)

theorem read_write (d : GraphDocument) : read d.write = .ok d :=
  decode_document reader_inverts d

end GraphDocument

theorem GraphDocument.calls_ofGraphs (calls imports : NameGraph) :
    (ofGraphs calls imports).calls = calls :=
  Digraph.ofRows_toRows calls

theorem GraphDocument.imports_ofGraphs (calls imports : NameGraph) :
    (ofGraphs calls imports).imports = imports :=
  Digraph.ofRows_toRows imports

/-- The document of two graphs is read back as it was written and denotes these graphs. Whatever text
is read, the document of its graphs denotes the same graphs, and writing those once more changes
nothing. -/
theorem GraphDocument.read_write_ofGraphs :
    (∀ calls imports : NameGraph,
      read (ofGraphs calls imports).write = .ok (ofGraphs calls imports) ∧
        (ofGraphs calls imports).calls = calls ∧ (ofGraphs calls imports).imports = imports) ∧
    ∀ (text : String) (d : GraphDocument), read text = .ok d →
      ∃ e, read (ofGraphs d.calls d.imports).write = .ok e ∧
        e.calls = d.calls ∧ e.imports = d.imports ∧
        (ofGraphs e.calls e.imports).write = (ofGraphs d.calls d.imports).write := by
  have hgraphs : ∀ calls imports : NameGraph,
      read (ofGraphs calls imports).write = .ok (ofGraphs calls imports) ∧
        (ofGraphs calls imports).calls = calls ∧ (ofGraphs calls imports).imports = imports := by
    intro calls imports
    refine ⟨read_write _, ?_, ?_⟩
    · exact calls_ofGraphs calls imports
    · exact imports_ofGraphs calls imports
  refine ⟨hgraphs, fun text d _ => ?_⟩
  obtain ⟨hread, hcalls, himports⟩ := hgraphs d.calls d.imports
  refine ⟨ofGraphs d.calls d.imports, hread, hcalls, himports, ?_⟩
  rw [hcalls, himports]

/-- Two rows out of order, with an escape sequence and a repetition, and no imports. -/
def unsortedDocument : String :=
  "\x7b\"call_graph\": \x7b\"b\": [\"\\u007a\", \"a\", \"a\"], \"a\": []\x7d\x7d"

theorem GraphDocument.read_write_ofGraphs_unsorted :
    ∃ d e, read unsortedDocument = .ok d ∧ d.callGraph.get? "b" = some ["z", "a", "a"] ∧
      read (ofGraphs d.calls d.imports).write = .ok e ∧ e.calls.keys = ["a", "b"] ∧
      e.calls.edges = [("b", "a"), ("b", "z")] ∧
      (ofGraphs e.calls e.imports).write = (ofGraphs d.calls d.imports).write := by
  have hread : read unsortedDocument =
      .ok ⟨.ofList [("a", []), ("b", ["z", "a", "a"])], ∅⟩ := by decide +kernel
  obtain ⟨e, hagain, hcalls, -, hfixed⟩ := read_write_ofGraphs.2 unsortedDocument _ hread
  refine ⟨_, e, hread, by decide +kernel, hagain, ?_, ?_, hfixed⟩
  · rw [hcalls]
    decide +kernel
  · rw [hcalls]
    decide +kernel

/-! ### Lists of cycles -/

namespace CycleList

theorem read_write (cs : List (List String)) : read (write cs) = .ok cs :=
  decode_document (readList_inverts (readList_inverts readString_inverts)) cs

/-- There is no flaw if every path has an edge and ends where it starts. -/
theorem flawFrom_eq_none_iff {cs : List (List String)} (i : Nat) :
    flawFrom i cs = none ↔ ∀ c ∈ cs, 2 ≤ c.length ∧ c.head? = c.getLast? := by
  induction cs generalizing i with
  | nil => simp [flawFrom]
  | cons c cs ih =>
    rw [flawFrom, List.forall_mem_cons, ← ih (i + 1)]
    split
    · rename_i hshort
      simp [Nat.not_le.2 hshort]
    · rename_i hlength
      split
      · rename_i hopen
        simp [bne_iff_ne.1 hopen]
      · rename_i hclosed
        simp [Nat.not_lt.1 hlength, by simpa using hclosed]

theorem closed_of_mem_detectCycles {g : NameGraph} {dedupe : Bool} {c : List String}
    (hc : c ∈ detectCycles g dedupe) : 2 ≤ c.length ∧ c.head? = c.getLast? := by
  have hmem : c ∈ cycles g.adjacency := by
    unfold detectCycles at hc
    split at hc
    · rwa [dedupRotations_eq_self] at hc
    · exact hc
  have hcycle := elementaryCycle_of_mem_cycles hmem
  exact ⟨hcycle.two_le_length, hcycle.closed⟩

theorem flaw?_detectCycles (g : NameGraph) (dedupe : Bool) :
    flaw? (detectCycles g dedupe) = none :=
  (flawFrom_eq_none_iff 0).2 fun _ => closed_of_mem_detectCycles

end CycleList

end CallAtlas
