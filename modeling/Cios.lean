import Cios.Rbac.Closure
import Cios.Http.TenantScope
import Cios.Control.Lifetime
import Cios.Control.RiskClass
import Cios.Wal.Recovery
import Cios.Wal.Corrupt
import Cios.Alarm.Groups
import Cios.Policy.Breaker
import Cios.Apigw.Stream
import Cios.Apigw.Startup
import Cios.Migrate.Audit
import Cios.Migrate.Attach
import Cios.Inventory.Lifecycle
import Cios.Apigw.TokenRoute
import Cios.Authn.Redirect
import Cios.Authn.Algorithms
import Cios.Apigw.Customer
import Cios.Usage.Upsert
import Cios.Usage.Scope
import Cios.Http.Reconcile
import Cios.Http.Latest
import Cios.Http.AccessLog
import Cios.Http.Retention
import Cios.Http.PackImport
import Cios.Rules.Quality
import Cios.Alarm.Hysteresis
import Cios.Alarm.Freshness
import Cios.Tenant.Plain
import Cios.Store.Integrity
import Cios.Inventory.Stock
import Cios.Ticket.Pg
import Cios.Ticket.Checklist
import Cios.Rbac.Names
import Cios.Gateway.Retired
import Cios.Driver.Snmp
import Cios.Driver.ModbusAnswers
