import MyDuck.Base.KeyedBag
import MyDuck.Base.Session
import MyDuck.Base.Run
import MyDuck.Base.Base64
import MyDuck.Base.Strings
import MyDuck.Base.Processes
import MyDuck.Base.Bytes
import MyDuck.Base.Calendar
import MyDuck.Base.Like
import MyDuck.Base.Path
import MyDuck.Base.SqlTokens
import MyDuck.Base.Regex
import MyDuck.Delta.Appender
import MyDuck.Delta.Controller
import MyDuck.Delta.ControllerTheorems
import MyDuck.Delta.BufferTheorems
import MyDuck.Binlog.Events
import MyDuck.Binlog.Applier
import MyDuck.Binlog.Source
import MyDuck.Binlog.ApplierTheorems
import MyDuck.Binlog.Accounts
import MyDuck.Binlog.PositionTheorems
import MyDuck.Binlog.ReconnectTheorems
import MyDuck.Binlog.FaultTheorems
import MyDuck.Binlog.UpdateTheorems
import MyDuck.Binlog.Batch
import MyDuck.Binlog.StampTheorems
import MyDuck.Binlog.EventProducer
import MyDuck.Binlog.Filters
import MyDuck.Binlog.FilterRules
import MyDuck.Binlog.ReplicaControl
import MyDuck.Binlog.SchemaTheorems
import MyDuck.Binlog.Rbr
import MyDuck.Binlog.CellTheorems
import MyDuck.Binlog.TemporalTheorems
import MyDuck.Binlog.DecimalTheorems
import MyDuck.Binlog.RowCells
import MyDuck.Binlog.RowCellTheorems
import MyDuck.Binlog.RowBufferTheorems
import MyDuck.Binlog.QueryVars
import MyDuck.Replica.Updater
import MyDuck.Replica.UpdaterTheorems
import MyDuck.Replica.PartialUpdateTheorems
import MyDuck.Replica.KeylessTheorems
import MyDuck.Logrepl.Replicator
import MyDuck.Logrepl.Source
import MyDuck.Logrepl.ReplicatorTheorems
import MyDuck.Logrepl.TupleTheorems
import MyDuck.Logrepl.PositionTheorems
import MyDuck.Logrepl.BufferTheorems
import MyDuck.Logrepl.TableRuns
import MyDuck.Logrepl.LinkTheorems
import MyDuck.Logrepl.Accounts
import MyDuck.Logrepl.Subscription
import MyDuck.Logrepl.SubscriptionTheorems
import MyDuck.Logrepl.WholeTheorems
import MyDuck.Logrepl.LossTheorems
import MyDuck.Logrepl.Control
import MyDuck.Logrepl.ControlTheorems
import MyDuck.Logrepl.Reconcile
import MyDuck.Logrepl.ReconcileTheorems
import MyDuck.Catalog.Table
import MyDuck.Catalog.TableTheorems
import MyDuck.Catalog.ColumnOrderTheorems
import MyDuck.Catalog.LogicalKeyTheorems
import MyDuck.Catalog.ModifyTheorems
import MyDuck.Catalog.AutoIncrement
import MyDuck.Catalog.Database
import MyDuck.Catalog.TypeMapping
import MyDuck.Backend.LoadData
import MyDuck.Pg.Scram
import MyDuck.Pg.ScramTheorems
import MyDuck.Pg.Connection
import MyDuck.Pg.ReadyTheorems
import MyDuck.Pg.StatementTheorems
import MyDuck.Pg.DisciplineTheorems
import MyDuck.Pg.Backup
import MyDuck.Pg.BackupTheorems
import MyDuck.Pg.Restore
import MyDuck.Pg.RestoreTheorems
import MyDuck.Pg.Spool
import MyDuck.Pg.SpoolTheorems
import MyDuck.Pg.Bind
import MyDuck.Pg.CopyFrom
import MyDuck.Pg.CopyFromTheorems
import MyDuck.Pg.CopyTo
import MyDuck.Pg.LeadingComments
import MyDuck.Pg.CopyOptionsTheorems
import MyDuck.Pg.CopyOptionsPanic
import MyDuck.Pg.CopyDialectTheorems
import MyDuck.Logrepl.DecodeTheorems
import MyDuck.Backend.RowIter
import MyDuck.Catalog.ConnPool
import MyDuck.Catalog.InternalTables
import MyDuck.Catalog.IndexNames
import MyDuck.Backend.PersistedVariables
import MyDuck.Pg.ConnectionString
import MyDuck.Base.Quoting
import MyDuck.Transpiler.Converter
