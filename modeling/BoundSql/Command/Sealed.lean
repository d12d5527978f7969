import BoundSql.Command.Host

/-! A host without an engine. Queries can be printed there, as long as there is memory for the
connections that are never opened; what is said where memory is short lists the calls that led
there. -/

namespace BoundSql.Command.Host

/-- The calls under which memory is refused, the innermost first, as the process lists them. -/
def calls : List String :=
  ["std::alloc::rust_oom",
    "__rustc::__rust_alloc_error_handler",
    "alloc::alloc::handle_alloc_error",
    "alloc::raw_vec::handle_error",
    "<alloc::boxed::Box<[crossbeam_queue::array_queue::Slot<sqlx_core::pool::connection::Idle<" ++
      "sqlx_sqlite::database::Sqlite>>]> as core::iter::traits::collect::FromIterator<" ++
      "crossbeam_queue::array_queue::Slot<sqlx_core::pool::connection::Idle<" ++
      "sqlx_sqlite::database::Sqlite>>>>::from_iter::<core::iter::adapters::map::Map<" ++
      "core::ops::range::Range<usize>, <crossbeam_queue::array_queue::ArrayQueue<" ++
      "sqlx_core::pool::connection::Idle<sqlx_sqlite::database::Sqlite>>>::new::" ++
      "\x7bclosure#0\x7d>>",
    "<sqlx_core::pool::inner::PoolInner<sqlx_sqlite::database::Sqlite>>::new_arc",
    "<sqlx_core::pool::options::PoolOptions<sqlx_sqlite::database::Sqlite>>::connect_lazy",
    "<oxide_sqlkit_sqlite::database::SqliteDatabase>::connect_lazy",
    "<tokio::runtime::park::CachedParkThread>::block_on::<sqlkit::main::\x7bclosure#0\x7d>",
    "tokio::runtime::context::runtime::enter_runtime::<" ++
      "<tokio::runtime::scheduler::multi_thread::MultiThread>::block_on<" ++
      "sqlkit::main::\x7bclosure#0\x7d>::\x7bclosure#0\x7d, " ++
      "core::result::Result<(), anyhow::Error>>",
    "<tokio::runtime::runtime::Runtime>::block_on::<sqlkit::main::\x7bclosure#0\x7d>",
    "sqlkit::main"]

/-- A call with its number, set flush right in four places. -/
def callLine (i : Nat) (call : String) : String :=
  let number := toString i
  "".pushn ' ' (4 - number.length) ++ number ++ ": " ++ call ++ "\n"

/-- A host without an engine, where every name is accepted and no database can be opened. -/
def sealed : Host where
  refuses _ := none
  connect _ := .error (.behind "error returned from database: "
    ⟨"(code: 14) unable to open database file", []⟩)
  slotBytes := 72
  grantedBytes := Nat.pow 2 35
  noSlots := "thread 'main' panicked:\ncapacity must be non-zero\n"
  refusal bytes :=
    "memory allocation of " ++ toString bytes ++ " bytes failed\nstack backtrace:\n" ++
      String.join (calls.mapIdx callLine) ++
      "note: Some details are omitted, run with \x60RUST_BACKTRACE=full\x60 for a verbose " ++
      "backtrace.\n"
  display n := n.message ++ "\n"

end BoundSql.Command.Host
