import DeclPieces.Fault
import DeclPieces.Proofs.WholeTag

/-! Codes in a tree of faults. Only the first coded fault in depth-first order is asked for its code, and that finds
every code of the tree exactly if the tree has no two. -/
namespace DeclPieces.Fault
variable {f g cause : Fault} {c : Code} {x : Coded}

/-- What a fault says itself, apart from the faults it is made of. -/
def own? : Fault → Option Coded
  | coded code text path => some ⟨code, text, path⟩
  | caused code text path _ => some ⟨code, text, path⟩
  | _ => none

/-- The faults that a fault is directly made of, in the order in which they are reported. -/
def causes : Fault → List Fault
  | note _ cause => [cause]
  | joined faults => faults
  | caused _ _ _ cause => [cause]
  | _ => []

/-- Is a fault the given one, or one that it is made of at any depth? -/
inductive MadeOf : Fault → Fault → Prop
  | self {f : Fault} : MadeOf f f
  | through {f cause g : Fault} (hc : cause ∈ f.causes) (h : MadeOf cause g) : MadeOf f g

mutual
/-- The faults of the tree in depth-first order, each before those it is made of. -/
def parts : Fault → List Fault
  | plain text => [plain text]
  | access action path obstacle => [access action path obstacle]
  | setting field reason => [setting field reason]
  | note text cause => note text cause :: cause.parts
  | joined faults => joined faults :: partsOfAll faults
  | coded code text path => [coded code text path]
  | caused code text path cause => caused code text path cause :: cause.parts

def partsOfAll : List Fault → List Fault
  | [] => []
  | fault :: rest => fault.parts ++ partsOfAll rest
end

/-- Does a coded fault of the tree carry `c`? -/
def Carries (f : Fault) (c : Code) : Prop := ∃ g, f.MadeOf g ∧ ∃ x ∈ g.own?, x.code = c

/-- Does the first coded fault of the tree carry `c`? -/
def CarriesFirst (f : Fault) (c : Code) : Prop :=
  ∃ g, f.parts.FirstOf (fun h => h.own? ≠ none) g ∧ ∃ x ∈ g.own?, x.code = c

lemma sizeOf_causes_lt (h : cause ∈ f.causes) : sizeOf cause < sizeOf f := by
  cases f with
  | note text fault =>
    obtain rfl : cause = fault := List.mem_singleton.mp h
    simp only [note.sizeOf_spec]
    omega
  | joined faults =>
    have hlt : sizeOf cause < sizeOf faults := List.sizeOf_lt_of_mem h
    simp only [joined.sizeOf_spec]
    omega
  | caused code text path fault =>
    obtain rfl : cause = fault := List.mem_singleton.mp h
    simp only [caused.sizeOf_spec]
    omega
  | _ => simp [causes] at h

/-- What holds of a fault whenever it holds of those it is made of holds of every fault. -/
lemma tree_induction {motive : Fault → Prop} (h : ∀ f : Fault, (∀ cause ∈ f.causes, motive cause) → motive f)
    (f : Fault) : motive f :=
  h f fun cause hcause =>
    have := sizeOf_causes_lt hcause
    tree_induction h cause
termination_by f

/-! The order. -/

lemma partsOfAll_eq (faults : List Fault) : partsOfAll faults = faults.flatMap parts := by
  induction faults with
  | nil => rfl
  | cons fault rest ih => rw [partsOfAll, ih, List.flatMap_cons]

lemma parts_eq (f : Fault) : f.parts = f :: f.causes.flatMap parts := by
  cases f <;> simp [parts, causes, partsOfAll_eq]

/-- The order leaves out none of the faults that the tree is made of. -/
lemma mem_parts_iff : g ∈ f.parts ↔ f.MadeOf g := by
  induction f using tree_induction with
  | h f ih =>
    rw [parts_eq, List.mem_cons, List.mem_flatMap]
    constructor
    · rintro (rfl | ⟨cause, hc, hg⟩)
      · exact .self
      · exact .through hc ((ih cause hc).mp hg)
    · intro h
      cases h with
      | self => exact .inl rfl
      | through hc h => exact .inr ⟨_, hc, (ih _ hc).mpr h⟩

/-! What the searches find in it. -/

lemma codedFaultsOfAll_eq (faults : List Fault) : codedFaultsOfAll faults = faults.flatMap codedFaults := by
  induction faults with
  | nil => rfl
  | cons fault rest ih => rw [codedFaultsOfAll, ih, List.flatMap_cons]

lemma codedFaults_eq (f : Fault) : f.codedFaults = f.own?.toList ++ f.causes.flatMap codedFaults := by
  cases f <;> simp [codedFaults, own?, causes, codedFaultsOfAll_eq]

lemma firstCodedOfAll?_eq (faults : List Fault) : firstCodedOfAll? faults = faults.findSome? firstCoded? := by
  induction faults with
  | nil => rfl
  | cons fault rest ih =>
    rw [firstCodedOfAll?, ih, List.findSome?_cons]
    cases fault.firstCoded? <;> rfl

lemma firstCoded?_eq (f : Fault) : f.firstCoded? = f.own?.or (f.causes.findSome? firstCoded?) := by
  cases f <;> simp [firstCoded?, own?, causes, firstCodedOfAll?_eq]

lemma codedFaults_eq_filterMap (f : Fault) : f.codedFaults = f.parts.filterMap own? := by
  induction f using tree_induction with
  | h f ih =>
    rw [codedFaults_eq, parts_eq, List.filterMap_cons, List.filterMap_flatMap, List.flatMap_congr ih]
    cases f.own? <;> rfl

lemma firstCoded?_eq_head? (f : Fault) : f.firstCoded? = f.codedFaults.head? := by
  induction f using tree_induction with
  | h f ih =>
    have hcauses : f.causes.findSome? firstCoded? = (f.causes.flatMap codedFaults).head? := calc
      f.causes.findSome? firstCoded? = (f.causes.map firstCoded?).findSome? id := by rw [List.findSome?_map]; rfl
      _ = (f.causes.map fun cause => cause.codedFaults.head?).findSome? id := by rw [List.map_congr_left ih]
      _ = (f.causes.flatMap codedFaults).head? := by rw [List.findSome?_map, List.head?_flatMap]; rfl
    rw [firstCoded?_eq, codedFaults_eq, List.head?_append, hcauses]
    cases f.own? <;> rfl

/-- The search ends at the first coded fault in depth-first order. -/
lemma firstCoded?_eq_some_iff :
    f.firstCoded? = some x ↔ ∃ g, f.parts.FirstOf (fun h => h.own? ≠ none) g ∧ g.own? = some x := by
  rw [firstCoded?_eq_head?, codedFaults_eq_filterMap, List.head?_filterMap, List.findSome?_eq_some_iff]
  constructor
  · rintro ⟨before, g, after, hparts, hg, hbefore⟩
    exact ⟨g, ⟨before, after, hparts, by simp [hg], by simpa using hbefore⟩, hg⟩
  · rintro ⟨g, ⟨before, after, hparts, -, hbefore⟩, hg⟩
    exact ⟨before, g, after, hparts, hg, by simpa using hbefore⟩

lemma firstCoded?_eq_none_iff : f.firstCoded? = none ↔ ∀ g, f.MadeOf g → g.own? = none := by
  rw [firstCoded?_eq_head?, codedFaults_eq_filterMap, List.head?_filterMap, List.findSome?_eq_none_iff]
  simp only [mem_parts_iff]

lemma mem_codedFaults_iff : x ∈ f.codedFaults ↔ ∃ g, f.MadeOf g ∧ g.own? = some x := by
  rw [codedFaults_eq_filterMap, List.mem_filterMap]
  simp only [mem_parts_iff]

/-! Codes. -/

lemma carries_iff : f.Carries c ↔ ∃ x ∈ f.codedFaults, x.code = c := by
  simp only [mem_codedFaults_iff]
  constructor
  · rintro ⟨g, hg, x, hx, hc⟩
    exact ⟨x, ⟨g, hg, hx⟩, hc⟩
  · rintro ⟨x, ⟨g, hg, hx⟩, hc⟩
    exact ⟨g, hg, x, hx, hc⟩

lemma CarriesFirst.carries (h : f.CarriesFirst c) : f.Carries c := by
  obtain ⟨g, hfirst, hown⟩ := h
  exact ⟨g, mem_parts_iff.mp hfirst.mem, hown⟩

/-- A tree that carries a code at all has a first coded fault. -/
lemma Carries.exists_first (h : f.Carries c) : ∃ c', f.CarriesFirst c' := by
  obtain ⟨g, hg, x, hx, -⟩ := h
  have hcoded : g.own? ≠ none := by simp [Option.mem_def.mp hx]
  obtain ⟨first, hfirst⟩ := List.exists_firstOf (p := fun h => h.own? ≠ none) ⟨g, mem_parts_iff.mpr hg, hcoded⟩
  obtain ⟨y, hy⟩ := Option.ne_none_iff_exists'.mp hfirst.holds
  exact ⟨y.code, first, hfirst, y, hy, rfl⟩

lemma code_eq_iff (hc : c ≠ []) : f.code = c ↔ f.CarriesFirst c := by
  have hcode : f.code = c ↔ ∃ x, f.firstCoded? = some x ∧ x.code = c := by
    unfold code
    cases f.firstCoded? with
    | none => simpa using Ne.symm hc
    | some x => simp
  rw [hcode]
  constructor
  · rintro ⟨x, hx, rfl⟩
    obtain ⟨g, hfirst, hg⟩ := firstCoded?_eq_some_iff.mp hx
    exact ⟨g, hfirst, x, hg, rfl⟩
  · rintro ⟨g, hfirst, x, hg, rfl⟩
    exact ⟨x, firstCoded?_eq_some_iff.mpr ⟨g, hfirst, hg⟩, rfl⟩

lemma hasCode_iff (hc : c ≠ []) : f.hasCode c = true ↔ f.CarriesFirst c := by
  rw [hasCode, decide_eq_true_eq, code_eq_iff hc]

/-- The code of a tree is that of its first coded fault, and empty if there is none. A tree has a code exactly if that
fault carries it. So all codes that the tree carries are found exactly if they are one. -/
theorem hasCode_iff_carries_iff (hnamed : ∀ g, f.MadeOf g → ∀ x ∈ g.own?, x.code ≠ []) :
    (f.code = [] ↔ ∀ g, f.MadeOf g → g.own? = none) ∧
      (∀ c ≠ [], (f.code = c ↔ f.CarriesFirst c) ∧ (f.hasCode c = true ↔ f.CarriesFirst c)) ∧
      ((∀ c ≠ [], f.hasCode c = true ↔ f.Carries c) ↔ ∀ c c', f.Carries c → f.Carries c' → c = c') := by
  have hne : ∀ c, f.Carries c → c ≠ [] := by
    rintro c ⟨g, hg, x, hx, rfl⟩
    exact hnamed g hg x hx
  refine ⟨?_, fun c hc => ⟨code_eq_iff hc, hasCode_iff hc⟩, ?_⟩
  · rw [← firstCoded?_eq_none_iff]
    constructor
    · intro hcode
      by_contra hsome
      obtain ⟨x, hx⟩ := Option.ne_none_iff_exists'.mp hsome
      obtain ⟨g, hfirst, hg⟩ := firstCoded?_eq_some_iff.mp hx
      refine hnamed g (mem_parts_iff.mp hfirst.mem) x hg ?_
      simpa [code, hx] using hcode
    · intro hnone
      simp [code, hnone]
  · constructor
    · -- whatever the tree carries is what its first coded fault carries
      intro hfound c c' hc hc'
      have hcode (d : Code) (hd : f.Carries d) : f.code = d :=
        (code_eq_iff (hne d hd)).mpr ((hasCode_iff (hne d hd)).mp ((hfound d (hne d hd)).mpr hd))
      rw [← hcode c hc, hcode c' hc']
    · intro halike c hc
      rw [hasCode_iff hc]
      refine ⟨CarriesFirst.carries, fun hcarries => ?_⟩
      obtain ⟨c', hfirst⟩ := hcarries.exists_first
      rwa [halike c c' hcarries hfirst.carries]

/-- Several files failed, one of them because its pieces did, and all for one reason. -/
def lockedFiles : Fault :=
  .joined [.note "first" (.plain "stopped"), .note "second" (.caused Code.locked "directory" "/p/b"
    (.joined [.plain "busy", .coded Code.locked "piece" "/p/b/c"])), .coded Code.locked "directory" "/p/d"]

theorem locked_files_carry_code :
    (∀ g, lockedFiles.MadeOf g → ∀ x ∈ g.own?, x.code ≠ []) ∧
      (∀ c ≠ [], lockedFiles.hasCode c = true ↔ lockedFiles.Carries c) ∧
      lockedFiles.hasCode Code.locked = true ∧ lockedFiles.hasCode Code.parseFailed = false := by
  have hcodes : ∀ x ∈ lockedFiles.codedFaults, x.code = Code.locked := by decide
  have hnamed : ∀ g, lockedFiles.MadeOf g → ∀ x ∈ g.own?, x.code ≠ [] := fun g hg x hx => by
    rw [hcodes x (mem_codedFaults_iff.mpr ⟨g, hg, hx⟩)]
    decide
  obtain ⟨-, -, hfound⟩ := hasCode_iff_carries_iff hnamed
  refine ⟨hnamed, hfound.mpr fun c c' hc hc' => ?_, by decide, by decide⟩
  obtain ⟨x, hx, rfl⟩ := carries_iff.mp hc
  obtain ⟨y, hy, rfl⟩ := carries_iff.mp hc'
  rw [hcodes x hx, hcodes y hy]

/-- A fault with a code is caused by one with another code, or reported beside it. The other code is not found. -/
theorem second_code_not_found :
    let nested : Fault := .caused Code.parseFailed "m" [] (.coded Code.locked "n" [])
    let beside : Fault := .joined [.coded Code.parseFailed "m" [], .coded Code.locked "n" []]
    (nested.Carries Code.locked ∧ nested.hasCode Code.locked = false) ∧
      beside.Carries Code.locked ∧ beside.hasCode Code.locked = false :=
  ⟨⟨carries_iff.mpr (by decide), by decide⟩, carries_iff.mpr (by decide), by decide⟩

end DeclPieces.Fault
