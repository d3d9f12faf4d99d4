import ReplicatedKv.Proofs.Json.Strings

/-! # Readings

A document is read from left to right.  What stands before a quote decides what becomes of the
quote: something ends before it, it ends a string, or it begins a string that is read as a text or
passed over.  Nothing else of what stands behind it matters.

* `Reading` — what is made of a byte string, and how readings follow one another.
* `Stops` — what ends before a quote.
* `Meets` — what becomes of a quote, for any bytes before it.
* `Stops.andThen`, `Stops.andThen_meets`, `Meets.andThen` — one reading after another.
-/

namespace ReplicatedKv.Json

variable {β γ : Type}

/-! ## Readings -/

/-- What is read at the front of a byte string, and what is left of it. -/
abbrev Reading (β : Type) := Bytes → β → Bytes → Prop

def reads (f : Bytes → Except Fault (β × Bytes)) : Reading β := fun s b rest => f s = .ok (b, rest)

def drops (f : Bytes → Except Fault Bytes) : Reading Unit := fun s _ rest => f s = .ok rest

namespace Reading

/-- Takes nothing, and fails without a result. -/
def give (o : Option β) : Reading β := fun s b rest => o = some b ∧ rest = s

def andThen (first : Reading β) (K : β → Reading γ) : Reading γ :=
  fun s c rest => ∃ b mid, first s b mid ∧ K b mid c rest

theorem drops_andThen_iff {f g : Bytes → Except Fault Bytes} {s rest : Bytes} {b : Unit} :
    (drops f).andThen (fun _ => drops g) s b rest ↔ ∃ mid, f s = .ok mid ∧ g mid = .ok rest :=
  ⟨fun ⟨_, mid, first, second⟩ => ⟨mid, first, second⟩,
    fun ⟨mid, first, second⟩ => ⟨(), mid, first, second⟩⟩

theorem ext {R Q : Reading β} (same : ∀ s b rest, R s b rest ↔ Q s b rest) : R = Q :=
  funext fun s => funext fun b => funext fun rest => propext (same s b rest)

end Reading

/-- The reading ends before the quote that stands behind `w`, whatever stands behind the quote. -/
inductive Stops (R : Reading β) (w : Bytes) : Prop where
  | fails : (∀ s b rest, ¬ R (w ++ quote :: s) b rest) → Stops R w
  | before (b : β) (v : Bytes) :
      (∀ s c rest, R (w ++ quote :: s) c rest ↔ c = b ∧ rest = v ++ quote :: s) → Stops R w

/-- What becomes of the quote that stands behind `w`. -/
inductive Meets (R : Reading β) (w : Bytes) : Prop where
  | stops : Stops R w → Meets R w
  /-- The quote is the last byte that is taken where a backslash follows. -/
  | closes : (∀ s b rest, R (w ++ quote :: backslash :: s) b rest → rest = backslash :: s) →
      Meets R w
  /-- A text is read after the quote. -/
  | wants (After : String → Reading β) :
      (∀ s b rest, R (w ++ quote :: s) b rest ↔
        ∃ text left, readText s = .ok (text, left) ∧ After text left b rest) → Meets R w
  /-- A string that nobody wants begins with the quote. -/
  | skips (After : Reading β) :
      (∀ s b rest, R (w ++ quote :: s) b rest ↔
        ∃ left, skipText s = .ok left ∧ After left b rest) → Meets R w

variable {R Q : Reading β} {K : β → Reading γ} {u v w : Bytes}

theorem Stops.of_iff (same : ∀ s b rest, R (w ++ quote :: s) b rest ↔ Q (v ++ quote :: s) b rest)
    (stops : Stops Q v) : Stops R w := by
  cases stops with
  | fails fails => exact .fails fun s b rest read => fails s b rest ((same s b rest).mp read)
  | before b u before => exact .before b u fun s c rest => (same s c rest).trans (before s c rest)

theorem Meets.of_iff (same : ∀ s b rest, R (w ++ quote :: s) b rest ↔ Q (v ++ quote :: s) b rest)
    (meets : Meets Q v) : Meets R w := by
  cases meets with
  | stops stops => exact .stops (stops.of_iff same)
  | closes closes => exact .closes fun s b rest read => closes s b rest ((same _ b rest).mp read)
  | wants After wants => exact .wants After fun s b rest => (same s b rest).trans (wants s b rest)
  | skips After skips => exact .skips After fun s b rest => (same s b rest).trans (skips s b rest)

theorem stops_give (o : Option β) (w : Bytes) : Stops (.give o) w := by
  cases o with
  | none => exact .fails fun s b rest given => nomatch given.1
  | some b =>
    refine .before b w fun s c rest => ?_
    rw [Reading.give, Option.some.injEq, eq_comm (a := b)]

theorem andThen_iff_of_before {b : β}
    (before : ∀ s c rest, R (w ++ quote :: s) c rest ↔ c = b ∧ rest = v ++ quote :: s)
    (s : Bytes) (c : γ) (rest : Bytes) :
    R.andThen K (w ++ quote :: s) c rest ↔ K b (v ++ quote :: s) c rest := by
  simp only [Reading.andThen, before]
  constructor
  · rintro ⟨_, _, ⟨rfl, rfl⟩, after⟩
    exact after
  · exact fun after => ⟨b, _, ⟨rfl, rfl⟩, after⟩

theorem Stops.andThen (first : Stops R w)
    (later : ∀ b v, (∀ s, R (w ++ quote :: s) b (v ++ quote :: s)) → Stops (K b) v) :
    Stops (R.andThen K) w := by
  cases first with
  | fails fails => exact .fails fun s c rest ⟨b, mid, read, _⟩ => fails s b mid read
  | before b v before =>
    exact (later b v fun s => (before s b _).mpr ⟨rfl, rfl⟩).of_iff (andThen_iff_of_before before)

/-- Nothing of what comes first is taken with the quote, so nothing is asked of what comes next. -/
theorem Stops.andThen_meets (first : Stops R w)
    (later : ∀ b v, (∀ s, R (w ++ quote :: s) b (v ++ quote :: s)) → Meets (K b) v) :
    Meets (R.andThen K) w := by
  cases first with
  | fails fails => exact .stops (.fails fun s c rest ⟨b, mid, read, _⟩ => fails s b mid read)
  | before b v before =>
    exact (later b v fun s => (before s b _).mpr ⟨rfl, rfl⟩).of_iff (andThen_iff_of_before before)

theorem Meets.andThen (first : Meets R w)
    (later : ∀ b v, (∀ s, R (w ++ quote :: s) b (v ++ quote :: s)) → Meets (K b) v)
    (afterQuote : ∀ b s c rest, K b (backslash :: s) c rest → rest = backslash :: s) :
    Meets (R.andThen K) w := by
  cases first with
  | stops stops => exact stops.andThen_meets later
  | closes closes =>
    refine .closes fun s c rest ⟨b, mid, read, after⟩ => ?_
    obtain rfl := closes s b mid read
    exact afterQuote b s c rest after
  | wants After wants =>
    refine .wants (fun text => (After text).andThen K) fun s c rest => ?_
    simp only [Reading.andThen, wants]
    constructor
    · rintro ⟨b, mid, ⟨text, left, read, then_⟩, after⟩
      exact ⟨text, left, read, b, mid, then_, after⟩
    · rintro ⟨text, left, read, b, mid, then_, after⟩
      exact ⟨b, mid, ⟨text, left, read, then_⟩, after⟩
  | skips After skips =>
    refine .skips (After.andThen K) fun s c rest => ?_
    simp only [Reading.andThen, skips]
    constructor
    · rintro ⟨b, mid, ⟨left, read, then_⟩, after⟩
      exact ⟨left, read, b, mid, then_, after⟩
    · rintro ⟨left, read, b, mid, then_, after⟩
      exact ⟨b, mid, ⟨left, read, then_⟩, after⟩

theorem Stops.give (first : Stops R w) (F : β → Option γ) :
    Stops (R.andThen fun b => .give (F b)) w :=
  first.andThen fun b v _ => stops_give (F b) v

theorem Meets.give (first : Meets R w) (F : β → Option γ) :
    Meets (R.andThen fun b => .give (F b)) w :=
  first.andThen (fun b v _ => .stops (stops_give (F b) v)) fun _ _ _ _ given => given.2

/-! ## Functions -/

theorem stops_reads_of_ok {f : Bytes → Except Fault (β × Bytes)} {b : β}
    (read : ∀ s, f (w ++ quote :: s) = .ok (b, v ++ quote :: s)) : Stops (reads f) w := by
  refine .before b v fun s c rest => ?_
  rw [reads, read, Except.ok.injEq, Prod.mk.injEq, eq_comm (a := b), eq_comm (b := rest)]

theorem stops_reads_of_error {f : Bytes → Except Fault (β × Bytes)}
    (failed : ∀ s, ∃ fault, f (w ++ quote :: s) = .error fault) : Stops (reads f) w := by
  refine .fails fun s b rest read => ?_
  obtain ⟨fault, failed⟩ := failed s
  nomatch failed.symm.trans read

theorem stops_drops_of_ok {f : Bytes → Except Fault Bytes}
    (dropped : ∀ s, f (w ++ quote :: s) = .ok (v ++ quote :: s)) : Stops (drops f) w := by
  refine .before () v fun s c rest => ?_
  rw [drops, dropped, Except.ok.injEq, eq_comm (b := rest)]
  exact (and_iff_right rfl).symm

theorem stops_drops_of_error {f : Bytes → Except Fault Bytes}
    (failed : ∀ s, ∃ fault, f (w ++ quote :: s) = .error fault) : Stops (drops f) w := by
  refine .fails fun s b rest dropped => ?_
  obtain ⟨fault, failed⟩ := failed s
  nomatch failed.symm.trans dropped

theorem Stops.map {f : Bytes → Except Fault (γ × Bytes)} {g : Bytes → Except Fault (β × Bytes)}
    (stops : Stops (reads g) v) (h : β → γ)
    (same : ∀ s, f (w ++ quote :: s) = (g (v ++ quote :: s)).map (Prod.map h id)) :
    Stops (reads f) w := by
  refine (stops.give fun b => some (h b)).of_iff fun s c rest => ?_
  cases read : g (v ++ quote :: s) <;>
    simp [reads, Reading.andThen, Reading.give, same, read, Except.map, Prod.ext_iff,
      eq_comm (a := rest), and_comm]

theorem drops_map_snd (f : Bytes → Except Fault (β × Bytes)) :
    drops (fun s => (f s).map Prod.snd) = (reads f).andThen fun _ => .give (some ()) := by
  refine Reading.ext fun s _ rest => ?_
  cases read : f s <;>
    simp [drops, reads, Reading.andThen, Reading.give, Except.map, read, Prod.ext_iff,
      eq_comm (a := rest)]

theorem Stops.map_snd {f : Bytes → Except Fault (β × Bytes)} (stops : Stops (reads f) w) :
    Stops (drops fun s => (f s).map Prod.snd) w := by
  rw [drops_map_snd]
  exact stops.give fun _ => some ()

theorem reads_map_pair (f : Bytes → Except Fault Bytes) (b : β) :
    reads (fun s => (f s).map (b, ·)) = (drops f).andThen fun _ => .give (some b) := by
  refine Reading.ext fun s c rest => ?_
  cases dropped : f s <;>
    simp [drops, reads, Reading.andThen, Reading.give, Except.map, dropped, eq_comm]

theorem Meets.map_pair {f : Bytes → Except Fault Bytes} (meets : Meets (drops f) w) (b : β) :
    Meets (reads fun s => (f s).map (b, ·)) w := by
  rw [reads_map_pair]
  exact meets.give fun _ => some b

end ReplicatedKv.Json
