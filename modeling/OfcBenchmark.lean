import OfcBenchmark.Lib.Memory
import OfcBenchmark.Lib.Framing
import OfcBenchmark.Lib.Runs
import OfcBenchmark.Lib.Barrier
import OfcBenchmark.Lib.Printf
import OfcBenchmark.Lib.Series
import OfcBenchmark.Lib.Scanning
import OfcBenchmark.OpenFlow
import OfcBenchmark.Msgbuf
import OfcBenchmark.MsgbufTheorems
import OfcBenchmark.MsgbufRuns
import OfcBenchmark.SwitchMessages
import OfcBenchmark.Myswitch
import OfcBenchmark.MyswitchTheorems
import OfcBenchmark.MessageLoopTheorems
import OfcBenchmark.StreamTheorems
import OfcBenchmark.GetCountTheorems
import OfcBenchmark.ReplyTheorems
import OfcBenchmark.RequestTheorems
import OfcBenchmark.LocalityTheorems
import OfcBenchmark.ClassificationTheorems
import OfcBenchmark.SwitchRuns
import OfcBenchmark.ProbeTheorems
import OfcBenchmark.HandshakeTheorems
import OfcBenchmark.Benchmark
import OfcBenchmark.BenchmarkTheorems
import OfcBenchmark.TestTheorems
import OfcBenchmark.IndependenceTheorems
import OfcBenchmark.Myserver
import OfcBenchmark.MyserverTheorems
import OfcBenchmark.StartTheorems
import OfcBenchmark.SamplingTheorems
import OfcBenchmark.Myreport
import OfcBenchmark.BenchmarkReport
import OfcBenchmark.Myplot
import OfcBenchmark.Lib.Table
import OfcBenchmark.PlotArrays
import OfcBenchmark.EnvironmentTheorems
import OfcBenchmark.ReportTheorems
import OfcBenchmark.RowTheorems
import OfcBenchmark.SlaveReports
import OfcBenchmark.HeaderTheorems
import OfcBenchmark.ReadyTheorems
import OfcBenchmark.GateTheorems
import OfcBenchmark.DelayTheorems
import OfcBenchmark.PacketInTheorems
import OfcBenchmark.SourceAddressTheorems
import OfcBenchmark.Mysnmp
import OfcBenchmark.LockstepTheorems
import OfcBenchmark.SeriesTheorems
import OfcBenchmark.BenchmarkResults
import OfcBenchmark.WindowTheorems
import OfcBenchmark.Lib.Decimal
import OfcBenchmark.Lib.Extremes
import OfcBenchmark.ExtremesTheorems
import OfcBenchmark.ColumnTheorems
import OfcBenchmark.LldpTheorems
import OfcBenchmark.RefillTheorems
import OfcBenchmark.Lib.Doubling
import OfcBenchmark.CapacityTheorems
import OfcBenchmark.Mymessages
import OfcBenchmark.TransportTheorems
import OfcBenchmark.SocketReadTheorems
import OfcBenchmark.PlotArraysTheorems
import OfcBenchmark.ResultsGraphTheorems
import OfcBenchmark.ValuesGraphTheorems
import OfcBenchmark.PlotLimitsTheorems
import OfcBenchmark.TimestampTheorems
import OfcBenchmark.SampleTheorems
import OfcBenchmark.WriteAllTheorems
import OfcBenchmark.Lib.Links
import OfcBenchmark.ReportQueues
import OfcBenchmark.ReportQueuesTheorems
import OfcBenchmark.Lib.Getopt
import OfcBenchmark.Myargs
import OfcBenchmark.MyargsTheorems
import OfcBenchmark.BenchmarkOptions
import OfcBenchmark.OptionTheorems
import OfcBenchmark.Lib.Plotter
import OfcBenchmark.Gnuplot
import OfcBenchmark.GnuplotTheorems
import OfcBenchmark.PictureTheorems
import OfcBenchmark.PlotGraph
import OfcBenchmark.FigureTheorems
import OfcBenchmark.ChartTheorems
import OfcBenchmark.AttributionTheorems
import OfcBenchmark.Network
import OfcBenchmark.NetworkTheorems
import OfcBenchmark.SessionTheorems
import OfcBenchmark.LinkTheorems
import OfcBenchmark.DeliveryTheorems
import OfcBenchmark.BoundTheorems
import OfcBenchmark.RegularTheorems
import OfcBenchmark.ProgressTheorems
