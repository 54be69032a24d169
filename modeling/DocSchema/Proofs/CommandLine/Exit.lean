import DocSchema.CommandLine.Run
import DocSchema.Proofs.Walk.Remarks
import DocSchema.Proofs.Walk.Step

/-!
What a run of the command line says.

A run prepares document, catalog and root type, and then validates the document against the name of
the root type it found, which is resolved once more. Resolving a resolved name gives that name
(`resolveRoot_idem`), so the run has the diagnostics of a validation against the name that was asked
for, and with its remarks it has those of one without. Main statement: `run_reports`.
-/

namespace DocSchema

/-- The failure is one of the system, of a lookup or of a value, as opposed to one of the arithmetic
and to something of the wrong kind. -/
def Failure.InInput : Failure → Prop
  | .fault f => f.inValue = true
  | .noPath => False
  | _ => True

/-- Failures that lie in the input have something to say. -/
theorem Failure.exists_inInput? {e : Failure} (h : e.InInput) :
    ∃ message, e.inInput? = some message := by
  cases e with
  | fault f => cases f <;> first | exact ⟨_, rfl⟩ | cases h
  | noPath => exact h.elim
  | _ => exact ⟨_, rfl⟩

theorem fileText_error {octets : List UInt8} {e : Failure} (h : fileText octets = .error e) :
    e.InInput := by
  simp only [fileText] at h
  split at h
  · cases h
  · cases h; trivial

theorem loadDocument_error {folder : Folder} {argument : String} {e : Failure}
    (h : loadDocument folder argument = .error e) : e.InInput := by
  simp only [loadDocument] at h
  split at h
  · exact fileText_error h
  · cases h

/-! ### Roots resolved twice -/

namespace Catalog

variable {c : Catalog} {name : Json} {root : String}

theorem typeNamed?_of_resolveRoot (h : c.resolveRoot name = .ok root) :
    (c.typeNamed? root).isSome = true := by
  simp only [resolveRoot] at h
  split at h
  · cases h
  · split at h
    · next hsome => cases h; exact hsome
    · cases h
  · split at h <;> cases h

/-- The name of a root type resolves to itself, whatever it was resolved from. -/
theorem resolveRoot_idem (h : c.resolveRoot name = .ok root) :
    c.resolveRoot (.string root) = .ok root := by
  have hroot : c.rootName (.string root) = .string root := by simp [rootName, Json.isNull]
  simp only [resolveRoot, hroot, typeNamed?_of_resolveRoot h, if_true]

/-- A validation depends on what its root resolves to alone. -/
theorem validate_resolved {m : Type → Type} [Monad m] [MonadExceptOf Fault m] [Journal m]
    (h : c.resolveRoot name = .ok root) (document : Document) :
    c.validate (m := m) document (.string root) = c.validate document name := by
  simp only [validate, h, resolveRoot_idem h]

end Catalog

namespace CommandLine

/-! ### The steps of a run -/

/-- The catalog that a request asks for. -/
def Request.catalog (folder : Folder) (r : Request) : Except Failure Catalog :=
  r.schemaPath >>= fun path => loadCatalog folder path

/-- One of the three steps before a validation fails. -/
inductive Fails (folder : Folder) (r : Request) (e : Failure) : Prop
  | document (h : loadDocument folder r.document = .error e)
  | catalog (h : r.catalog folder = .error e)
  | root {c} (hc : r.catalog folder = .ok c) (h : c.resolveRoot r.rootName = .error e)

/-- All three steps before a validation succeed. -/
structure Prepares (folder : Folder) (r : Request) (text : String) (c : Catalog) (root : String) :
    Prop where
  document : loadDocument folder r.document = .ok text
  catalog : r.catalog folder = .ok c
  root : c.resolveRoot r.rootName = .ok root

/-- A run leaves a code, an output and a text on its error stream, behind the remarks that were
asked for. -/
def Leaves (r : Request) (o : Outcome) (code : Nat) (output text : String) : Prop :=
  o.exit = .ok code ∧ o.output = output ∧ ∃ notes, o.errors = remarks r notes ++ [.text text]

/-- Without remarks, the text is all there is on the error stream. -/
theorem Leaves.errorText {r : Request} {o : Outcome} {code : Nat} {output text : String}
    (h : Leaves r o code output text) (hquiet : r.verbose = false) (stamp : String) :
    o.errorText stamp = text := by
  obtain ⟨-, -, notes, herrors⟩ := h
  simp [Outcome.errorText, herrors, remarks, hquiet, Piece.render, String.join]

theorem remarks_append (r : Request) (notes more : List Note) :
    remarks r (notes ++ more) = remarks r notes ++ remarks r more := by
  simp only [remarks]
  split <;> simp

variable {folder : Folder} {r : Request} {e : Failure} {text root : String} {c : Catalog}

/-- The steps of a run, without remarks. -/
theorem prepare_keeps (folder : Folder) (r : Request) : Keeps (prepare folder r) (do
    let document ← loadDocument folder r.document
    let c ← r.catalog folder
    let root ← c.resolveRoot r.rootName
    return (document, c, root)) := by
  have plain : Keeps (prepare folder r) (do
      let document ← settled (loadDocument folder r.document)
      let schema ← settled r.schemaPath
      let c ← loadCatalog folder schema
      let root ← settled (c.resolveRoot r.rootName)
      return (document, c, root)) :=
    (keeps_settled _).bind fun _ => (keeps_settled _).bind fun _ =>
      (loadCatalog_keeps folder _).bind fun _ => (keeps_settled _).bind fun _ =>
        (keeps_note _ _).bind fun _ => keeps_pure _
  simpa only [Catalog.settled_except, Request.catalog, bind_assoc] using plain

/-- Steps that succeed are what a run goes on with. -/
theorem Prepares.prepare (h : Prepares folder r text c root) : ∃ notes,
    (prepare folder r).run.run [] = (.ok (text, c, root), notes) := by
  refine ⟨_, Prod.ext ((prepare_keeps folder r []).trans ?_) rfl⟩
  simp [h.document, h.catalog, h.root, bind, Except.bind, pure, Except.pure]

/-- A step that fails in the input, or one before it, ends a run. -/
theorem Fails.prepare (h : Fails folder r e) (he : e.InInput) : ∃ first notes,
    first.InInput ∧ (prepare folder r).run.run [] = (.error first, notes) := by
  have hkeeps := prepare_keeps folder r []
  rcases hdocument : loadDocument folder r.document with first | document
  · refine ⟨first, _, loadDocument_error hdocument, Prod.ext (hkeeps.trans ?_) rfl⟩
    rw [hdocument]
    rfl
  · refine ⟨e, _, he, Prod.ext (hkeeps.trans ?_) rfl⟩
    rw [hdocument]
    cases h with
    | document h => rw [hdocument] at h; cases h
    | catalog h => rw [h]; rfl
    | root hc h => rw [hc]; simp only [bind, Except.bind, h]

/-! ### What is printed -/

theorem present_markdown (d : Diagnostic) (ds : List Diagnostic) : present true (d :: ds) =
    (1, Card.standard (d :: ds) ++ "\n", "") := rfl

theorem present_text (d : Diagnostic) (ds : List Diagnostic) : present false (d :: ds) =
    (1, "", "Validation failed:\n" ++
      String.join ((d :: ds).map fun d => s!"- {d.path}: {d.message}\n")) := rfl

theorem present_code (markdown : Bool) (d : Diagnostic) (ds : List Diagnostic) :
    (present markdown (d :: ds)).1 = 1 := by
  cases markdown <;> rfl

/-- The validation of a run prints the diagnostics of one against the name that was asked for. -/
theorem check_leaves {found : List Diagnostic} (h : c.resolveRoot r.rootName = .ok root)
    (hfound : c.validate (m := Except Fault) (.text text) r.rootName = .ok found) :
    Leaves r (check r text c root) (present r.markdown found).1 (present r.markdown found).2.1
      (present r.markdown found).2.2 := by
  have hplain : c.validate (m := Except Fault) (.text text) (.string root) = .ok found :=
    (Catalog.validate_resolved h _).trans hfound
  have hkeeps := Catalog.validate_keeps (c := c) (.text text) (.string root) []
  rw [hplain] at hkeeps
  rcases hrun : (c.validate (m := Recorded Fault) (.text text) (.string root)).run.run []
    with ⟨_ | own, notes⟩
  · rw [hrun] at hkeeps; cases hkeeps
  · rw [hrun] at hkeeps
    cases hkeeps
    simp only [check, hrun]
    exact ⟨rfl, rfl, notes, rfl⟩

/-- A prepared run prints the diagnostics of its document. -/
theorem validate_leaves {found : List Diagnostic} (h : Prepares folder r text c root)
    (hfound : c.validate (m := Except Fault) (.text text) r.rootName = .ok found) :
    Leaves r (validate folder r) (present r.markdown found).1 (present r.markdown found).2.1
      (present r.markdown found).2.2 := by
  obtain ⟨notes, hprepare⟩ := h.prepare
  obtain ⟨hexit, houtput, more, herrors⟩ := check_leaves h.root hfound
  simp only [validate, hprepare]
  refine ⟨hexit, houtput, notes ++ more, ?_⟩
  rw [herrors, remarks_append, List.append_assoc]

/-- A run that cannot be prepared prints nothing on its output. -/
theorem validate_fails (h : Fails folder r e) (he : e.InInput) :
    (validate folder r).exit = .ok 2 ∧ (validate folder r).output = "" := by
  obtain ⟨first, notes, hfirst, hprepare⟩ := h.prepare he
  obtain ⟨message, hmessage⟩ := Failure.exists_inInput? hfirst
  simp [validate, hprepare, hmessage]

/-- A run reports what the engine says. If the document cannot be read, the schema cannot be loaded
or the root type cannot be resolved, for a reason that lies in the input, it ends with code 2 and
without output. If all three can be had, it prints the diagnostics of a validation against the name
that was asked for: none is a valid document with code 0, and else the code is 1 and all of them are
printed in order. -/
theorem run_reports {folder : Folder} {argv : List String} {r : Request}
    (hr : parse argv = .ok r) :
    (∀ e : Failure, e.InInput → Fails folder r e →
      (run folder argv).exit = .ok 2 ∧ (run folder argv).output = "") ∧
    ∀ (text : String) (c : Catalog) (root : String) (found : List Diagnostic),
      Prepares folder r text c root →
      c.validate (m := Except Fault) (.text text) r.rootName = .ok found →
        (Leaves r (run folder argv) 0 "JSON is valid.\n" "" ↔ found = []) ∧
        (found ≠ [] → r.markdown = true →
          Leaves r (run folder argv) 1 (Card.standard found ++ "\n") "") ∧
        (found ≠ [] → r.markdown = false →
          Leaves r (run folder argv) 1 "" ("Validation failed:\n" ++
            String.join (found.map fun d => s!"- {d.path}: {d.message}\n"))) := by
  have hrun : run folder argv = validate folder r := by simp only [run, hr]
  rw [hrun]
  refine ⟨fun e he h => validate_fails h he, fun text c root found h hfound => ?_⟩
  have hleaves := validate_leaves h hfound
  cases found with
  | nil => exact ⟨iff_of_true hleaves rfl, fun h => absurd rfl h, fun h => absurd rfl h⟩
  | cons d ds =>
    refine ⟨iff_of_false ?_ (List.cons_ne_nil d ds), fun _ hmarkdown => ?_, fun _ hmarkdown => ?_⟩
    · rintro ⟨hexit, -⟩
      have hcode := hleaves.1.symm.trans hexit
      rw [present_code] at hcode
      cases hcode
    · rwa [hmarkdown, present_markdown] at hleaves
    · rwa [hmarkdown, present_text] at hleaves

/-- A number is to be checked as a slug of the sample. -/
def slugRequest : Request := ⟨"7", some "example.json", some "Slug", false, false⟩

theorem slugRequest_prepares : ∃ c, Prepares [] slugRequest "7" c "Slug" ∧
    c.validate (m := Except Fault) (.text "7") slugRequest.rootName =
      .ok [⟨"$", .typeMismatch, "Expected String."⟩] := by
  have loaded : (slugRequest.catalog []).toOption.map (fun c =>
      ((c.resolveRoot slugRequest.rootName).toOption,
        c.validate (m := Except Fault) (.text "7") slugRequest.rootName)) =
      some (some "Slug", .ok [⟨"$", .typeMismatch, "Expected String."⟩]) := by decide +kernel
  rcases hc : slugRequest.catalog [] with e | c
  · rw [hc] at loaded; cases loaded
  · simp only [hc, Except.toOption, Option.map_some, Option.some.injEq, Prod.mk.injEq] at loaded
    obtain ⟨hroot, hfound⟩ := loaded
    refine ⟨c, ⟨rfl, hc, ?_⟩, hfound⟩
    cases hname : c.resolveRoot slugRequest.rootName with
    | error e => rw [hname] at hroot; cases hroot
    | ok name => rw [hname] at hroot; cases hroot; rfl

/-- A number is no slug, and a schema that is nowhere cannot be loaded. -/
theorem run_slug :
    parse ["7", "example.json", "--type", "Slug"] = .ok slugRequest ∧
    Leaves slugRequest (run [] ["7", "example.json", "--type", "Slug"]) 1 ""
      "Validation failed:\n- $: Expected String.\n" ∧
    (run [] ["7", "example.json", "--type", "Slug"]).errorText "" =
      "Validation failed:\n- $: Expected String.\n" ∧
    Fails [] ⟨"7", some "none.json", none, false, false⟩ (.notFound "none.json") ∧
    (run [] ["7", "none.json"]).exit = .ok 2 ∧ (run [] ["7", "none.json"]).output = "" := by
  have lost : Fails [] ⟨"7", some "none.json", none, false, false⟩ (.notFound "none.json") :=
    .catalog rfl
  obtain ⟨c, hprepares, hfound⟩ := slugRequest_prepares
  have hslug : parse ["7", "example.json", "--type", "Slug"] = .ok slugRequest := rfl
  have reported := ((run_reports hslug).2 "7" c "Slug" _ hprepares hfound).2.2 (by simp) rfl
  exact ⟨hslug, reported, reported.errorText rfl "", lost,
    (run_reports rfl).1 (.notFound "none.json") trivial lost⟩

end CommandLine

end DocSchema
