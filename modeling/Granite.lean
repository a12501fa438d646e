import Granite.Net.Basic
import Granite.Net.Firing
import Granite.Condvar.Gadget
import Granite.Condvar.Arcs
import Granite.Condvar.Tokens
import Granite.Condvar.Build
import Granite.Condvar.Properties
import Granite.Condvar.Refinement
import Granite.Naming.Decimal
import Granite.Naming.Labels
import Granite.Utils.ConcreteType
import Granite.Sync.Memory
import Granite.Sync.Link
import Granite.Sync.Calls
import Granite.Translator.Managers
import Granite.Translator.Events
import Granite.Translator.Invariants
import Granite.Translator.Mutexes
